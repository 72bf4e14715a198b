/-
# Looking ahead

A cursor looks ahead for a text in a number of tokens. It finds it exactly if so many
tokens come before the first end of input and their texts, joined, are that text; then
it moves past them, and otherwise it stays (`Cursor.perform_lookahead`). Where one token
ends and the next begins does not matter, and a token may have no text at all. So to look
ahead for a text in `j + k` tokens is to look ahead for one part of it in `j` tokens and
for the other in the `k` tokens after them, and the tokens say where it is parted
(`Cursor.finds_add_iff`).

Key definitions: `Token.joined`, `Cursor.Finds`, `Cursor.LooksAhead`.
Key theorems: `Cursor.perform_lookahead`, `Cursor.finds_add_iff`, `lookahead_all_or_nothing`.
-/
import Calculator.Proofs.Midstream

namespace Calculator

open Calculator.Parser

/-- The texts of the tokens, one after the other. -/
def Token.joined (tokens : List Token) : String := String.join (tokens.map Token.text)

theorem Token.joined_append (tokens others : List Token) :
    joined (tokens ++ others) = joined tokens ++ joined others := by
  rw [joined, List.map_append, String.join_append]
  rfl

namespace Cursor

/-- The cursor finds the text in the next `k` tokens, and stands at `d` then. -/
def Finds (c : Cursor) (k : Nat) (text : String) (d : Cursor) : Prop :=
  c.perform (.lookahead k text) = (.flag true, d)

theorem textAhead_eq (c : Cursor) (k : Nat) : c.textAhead k = Token.joined (c.ahead.take k) := by
  rw [textAhead]
  generalize c.ahead.take k = tokens
  induction tokens with
  | nil => rfl
  | cons token tokens ih =>
    rw [List.foldr_cons, ih, Token.joined, Token.joined, List.map_cons, String.join_cons]

/-- **A cursor moves past tokens that are ahead and have the text, or stays where it is.** -/
theorem perform_lookahead (c : Cursor) (k : Nat) (text : String) :
    c.perform (.lookahead k text) =
      if k ≤ c.ahead.length ∧ Token.joined (c.ahead.take k) = text then (.flag true, c.pass k)
      else (.flag false, c) := by
  rw [← textAhead_eq, perform]
  split
  · next h => rw [lookahead?_eq_some_iff.2 ⟨h.1, h.2, rfl⟩]; rfl
  · next h =>
    cases hfound : c.lookahead? k text with
    | none => rfl
    | some d =>
      obtain ⟨hk, htext, -⟩ := lookahead?_eq_some_iff.1 hfound
      exact absurd ⟨hk, htext⟩ h

theorem finds_iff {c d : Cursor} {k : Nat} {text : String} :
    c.Finds k text d ↔ k ≤ c.ahead.length ∧ Token.joined (c.ahead.take k) = text ∧ d = c.pass k := by
  rw [Finds, perform_lookahead]
  split
  · next h => simp [h, eq_comm]
  · next h =>
    constructor
    · intro hfalse
      cases hfalse
    · rintro ⟨hk, htext, -⟩
      exact absurd ⟨hk, htext⟩ h

theorem pass_pass (c : Cursor) (j k : Nat) : (c.pass j).pass k = c.pass (j + k) :=
  ext (Nat.add_assoc _ _ _) List.drop_drop rfl

/-- **A text is found in tokens exactly if its parts are found one after the other.** -/
theorem finds_add_iff {c d : Cursor} {j k : Nat} {text : String} :
    c.Finds (j + k) text d ↔ ∃ first second m, first ++ second = text ∧
      c.Finds j first m ∧ m.Finds k second d := by
  simp only [finds_iff]
  constructor
  · rintro ⟨hlength, htext, rfl⟩
    refine ⟨_, Token.joined (((c.pass j).ahead).take k), _, ?_, ⟨by omega, rfl, rfl⟩, ?_, rfl,
      (pass_pass c j k).symm⟩
    · rw [← htext, List.take_add, Token.joined_append]
      rfl
    · rw [length_ahead_pass]
      omega
  · rintro ⟨first, second, m, htext, ⟨hj, hfirst, rfl⟩, hk, hsecond, rfl⟩
    rw [length_ahead_pass] at hk
    refine ⟨by omega, ?_, pass_pass c j k⟩
    rw [← htext, ← hfirst, ← hsecond, List.take_add, Token.joined_append]
    rfl

/-- The cursor looks ahead in the list for all or nothing, and in parts as at once. -/
structure LooksAhead (tokens : List Token) (c : Cursor) : Prop where
  /-- It finds what the next tokens of the list have, if they come before the first end of input. -/
  isTrue_iff : ∀ k text, (c.perform (.lookahead k text)).1 = .flag true ↔
    c.index + k ≤ Token.firstEnd tokens ∧
      Token.joined (tokens.extract c.index (c.index + k)) = text
  /-- Then it has moved past these tokens, and done no more. -/
  of_isTrue : ∀ k text, (c.perform (.lookahead k text)).1 = .flag true →
    (c.perform (.lookahead k text)).2 = c.pass k ∧
      (c.perform (.lookahead k text)).2.index = c.index + k
  /-- Otherwise it says so and stays. -/
  of_not_isTrue : ∀ k text, (c.perform (.lookahead k text)).1 ≠ .flag true →
    c.perform (.lookahead k text) = (.flag false, c)
  /-- A text is found at once exactly if it is found in two parts, and that leads to one place. -/
  finds_add_iff : ∀ j k text d, c.Finds (j + k) text d ↔
    ∃ first second m, first ++ second = text ∧ c.Finds j first m ∧ m.Finds k second d
  /-- There is one way to part it. -/
  parts_unique : ∀ j k first second first' second' m m' d d',
    c.Finds j first m → m.Finds k second d → c.Finds j first' m' → m'.Finds k second' d' →
    first = first' ∧ second = second' ∧ m = m' ∧ d = d'

end Cursor

/-- **Looking ahead is all or nothing, and goes together.** In every state that any operations in any
order lead to, or that a rule comes through on its way, the cursor finds a text in the next `k` tokens
exactly if so many come before the first end of input and their joined texts are that text; then it
moves past just these tokens, and otherwise it stays. It finds a text in `j + k` tokens exactly if the
text has two parts of which it finds one in `j` tokens and then the other in `k`, which leads to the
same state; and there is only one such pair of parts. -/
theorem lookahead_all_or_nothing {tokens : List Token} {file : String} {limit : Nat} {p : Parser}
    (h : p.ReachedIn tokens file limit) :
    p.cursor.LooksAhead (Token.terminated tokens file) := by
  have hwithin : ∀ k text, (p.cursor.index + k ≤ Token.firstEnd (Token.terminated tokens file) ∧
      Token.joined ((Token.terminated tokens file).extract p.cursor.index (p.cursor.index + k)) =
        text) ↔ k ≤ p.cursor.ahead.length ∧ Token.joined (p.cursor.ahead.take k) = text := by
    intro k text
    rw [h.standsIn.firstEnd_eq, Nat.add_le_add_iff_left]
    refine and_congr_right fun hk => ?_
    have hextract := h.standsIn.extract_eq (List.take_append_drop k p.cursor.ahead).symm
    rw [List.length_take, Nat.min_eq_left hk] at hextract
    rw [hextract]
  refine ⟨fun k text => ?_, fun k text => ?_, fun k text => ?_, fun _ _ _ _ => Cursor.finds_add_iff,
    fun j k first second first' second' m m' d d' hm hd hm' hd' => ?_⟩
  · rw [hwithin, Cursor.perform_lookahead]
    split
    · next hfound => exact ⟨fun _ => hfound, fun _ => rfl⟩
    · next hfound => exact ⟨nofun, fun hyes => absurd hyes hfound⟩
  · rw [Cursor.perform_lookahead]
    split
    · exact fun _ => ⟨rfl, rfl⟩
    · exact nofun
  · rw [Cursor.perform_lookahead]
    split
    · exact fun hno => absurd rfl hno
    · exact fun _ => rfl
  · rw [Cursor.finds_iff] at hm hd hm' hd'
    obtain ⟨-, hfirst, rfl⟩ := hm
    obtain ⟨-, hsecond, rfl⟩ := hd
    obtain ⟨-, hfirst', rfl⟩ := hm'
    obtain ⟨-, hsecond', rfl⟩ := hd'
    exact ⟨hfirst.symm.trans hfirst', hsecond.symm.trans hsecond', rfl, rfl⟩

/-- Marks with the texts, the third of them empty, and an end of input before the last one. -/
def raggedMarks : List Token :=
  ["(", "1+", "", ")"].map (fun text => ⟨.punct, text, Span.over 0 1 "shell", none⟩) ++
    [Token.endAt .unknown, ⟨.punct, "2", Span.over 0 1 "shell", none⟩]

/-- After `(` the text `1+)` is found in three tokens, and in two parts in one and two of them; with
the end of input nothing is found. -/
theorem lookahead_all_or_nothing_ragged :
    let p := (start raggedMarks "shell" 0).after [.cursor .advance]
    p.ReachedIn raggedMarks "shell" 0 ∧
    (∃ first second m, first ++ second = "1+)" ∧ p.cursor.Finds 1 first m ∧
      m.Finds 2 second (p.cursor.pass 3)) ∧
    p.cursor.perform (.lookahead 4 "1+)EOF") = (.flag false, p.cursor) := by
  intro p
  have hreached : p.ReachedIn raggedMarks "shell" 0 :=
    reachedIn_after raggedMarks "shell" 0 [.cursor .advance]
  have hlooks := lookahead_all_or_nothing hreached
  have hwhole : p.cursor.Finds (1 + 2) "1+)" (p.cursor.pass 3) :=
    Cursor.finds_iff.2 ⟨by decide +kernel, by decide +kernel, rfl⟩
  refine ⟨hreached, (hlooks.finds_add_iff 1 2 _ _).1 hwhole, hlooks.of_not_isTrue _ _ fun hfound => ?_⟩
  have hbefore : ¬ p.cursor.index + 4 ≤ Token.firstEnd (Token.terminated raggedMarks "shell") := by
    decide +kernel
  exact hbefore ((hlooks.isTrue_iff 4 "1+)EOF").1 hfound).1

end Calculator
