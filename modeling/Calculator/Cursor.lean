/-
# A place in a list of tokens

A cursor stands on a token of a terminated list, at the first end of input or
before it. It moves forward only, and never past that end: an operation that
cannot have what it asks for leaves the cursor where it is. What comes after
the first end of input is out of reach, so the cursor does not keep it.

Key definitions: `Cursor`, `Cursor.ofTokens`, `Cursor.current`, `Cursor.endWithin`,
`Cursor.advance`, `Cursor.lookahead?`, `Cursor.eat`.
Key theorems: `Cursor.endWithin_iff`, `Cursor.lookahead?_eq_some_iff`.
-/
import Calculator.Error
import Calculator.Token

namespace Calculator

/-- A place in a list of tokens. -/
structure Cursor where
  /-- The number of tokens passed. -/
  index : Nat
  /-- The tokens from the current one up to the end of input. -/
  ahead : List Token
  /-- The end of input. -/
  last : Token
  /-- The end of input comes first after the tokens ahead. -/
  isEnd_of_mem : ∀ token ∈ ahead, token.isEnd = false
  /-- The end of input is one. -/
  isEnd_last : last.isEnd = true

namespace Cursor

/-- The first token of a list, which is terminated if it is not. -/
def ofTokens (tokens : List Token) (file : String) : Cursor where
  index := 0
  ahead := (Token.terminated tokens file).takeWhile (!·.isEnd)
  last := ((Token.terminated tokens file).find? Token.isEnd).getD (Token.endAt (Position.at 0 file))
  isEnd_of_mem token h := by simpa using List.all_eq_true.1 List.all_takeWhile token h
  isEnd_last := by
    cases h : (Token.terminated tokens file).find? Token.isEnd with
    | none => rfl
    | some token => exact List.find?_some h

/-- The token the cursor stands on. -/
def current (c : Cursor) : Token := c.ahead.headD c.last

/-- Where the current token starts. -/
def position (c : Cursor) : Position := c.current.span.start

/-- Whether the cursor stands on the end of input. -/
def atEnd (c : Cursor) : Bool := c.current.isEnd

/-- Whether the end of input is among the next `k` tokens, the current one included. -/
def endWithin (c : Cursor) : Nat → Bool
  | 0 => false
  | k + 1 => (c.ahead.drop k).isEmpty

/-- Moves past `k` tokens, all of them ahead. -/
def pass (c : Cursor) (k : Nat) : Cursor where
  index := c.index + k
  ahead := c.ahead.drop k
  last := c.last
  isEnd_of_mem token h := c.isEnd_of_mem token (List.mem_of_mem_drop h)
  isEnd_last := c.isEnd_last

/-- Moves past the current token, which is given back; there is none at the end of input. -/
def advance (c : Cursor) : Except Error (Token × Cursor) :=
  if c.atEnd then .error ⟨.internal "Should not be at end", c.position⟩
  else .ok (c.current, c.pass 1)

/-- The texts of the next `k` tokens, joined. -/
def textAhead (c : Cursor) (k : Nat) : String :=
  (c.ahead.take k).foldr (fun token text => token.text ++ text) ""

/-- Moves past the next `k` tokens if the end of input is not among them and their joined
text is `text`. -/
def lookahead? (c : Cursor) (k : Nat) (text : String) : Option Cursor :=
  if c.endWithin k then none
  else if c.textAhead k = text then some (c.pass k) else none

/-- Moves past the current token if it is of the wanted kind, and gives it back. -/
def eat (c : Cursor) (wanted : Token.Kind) (fault : String → Fault) :
    Except Error (Token × Cursor) :=
  if c.atEnd then .error ⟨.endedEarly, c.position⟩
  else if c.current.kind = wanted then .ok (c.current, c.pass 1)
  else .error ⟨fault c.current.text, c.position⟩

/-- Moves past a punctuation mark. -/
def eatOperator (c : Cursor) : Except Error (Token × Cursor) := c.eat .punct .expectedOperator

/-- Moves past an integer. -/
def eatInteger (c : Cursor) : Except Error (Token × Cursor) := c.eat .integer .expectedInteger

/-- The end of input is within `k` tokens exactly if fewer than `k` are ahead. -/
theorem endWithin_iff (c : Cursor) (k : Nat) : c.endWithin k = true ↔ c.ahead.length < k := by
  cases k with
  | zero => simp [endWithin]
  | succ k =>
    rw [Nat.lt_succ_iff]
    simp [endWithin]

theorem atEnd_iff (c : Cursor) : c.atEnd = true ↔ c.ahead = [] := by
  rw [atEnd, current]
  cases h : c.ahead with
  | nil => simpa [h] using c.isEnd_last
  | cons token tokens =>
    have := c.isEnd_of_mem token (by simp [h])
    simp [this]

@[simp] theorem length_ahead_pass (c : Cursor) (k : Nat) :
    (c.pass k).ahead.length = c.ahead.length - k := by
  simp [pass]

theorem length_ahead_pass_one {c : Cursor} (h : c.atEnd = false) :
    (c.pass 1).ahead.length < c.ahead.length := by
  have hne : c.ahead ≠ [] := fun hnil => by simp [(atEnd_iff c).2 hnil] at h
  have := List.length_pos_iff.2 hne
  rw [length_ahead_pass]
  omega

/-- A text is looked ahead for all or nothing. -/
theorem lookahead?_eq_some_iff {c d : Cursor} {k : Nat} {text : String} :
    c.lookahead? k text = some d ↔ k ≤ c.ahead.length ∧ c.textAhead k = text ∧ d = c.pass k := by
  have hk := endWithin_iff c k
  by_cases h : c.ahead.length < k
  · simp [lookahead?, hk.2 h, Nat.not_le.2 h]
  · have hk : c.endWithin k = false := by rw [Bool.eq_false_iff, ne_eq, hk]; exact h
    simp [lookahead?, hk, Nat.not_lt.1 h, eq_comm]

theorem length_ahead_of_eat {c d : Cursor} {wanted : Token.Kind} {fault : String → Fault}
    {token : Token} (h : c.eat wanted fault = .ok (token, d)) :
    d.ahead.length < c.ahead.length := by
  unfold eat at h
  split at h
  · cases h
  · next hend =>
    split at h
    · cases h
      exact length_ahead_pass_one (by simpa using hend)
    · cases h

end Cursor

end Calculator
