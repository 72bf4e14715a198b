/-
# No operation leaves the list

A cursor keeps only what it can reach of a list. Here it stands beside a tape, which
has the whole list and an index and nothing that holds the index inside the list: a
read past the end of the list has no result. Every operation moves a cursor forward or
leaves it where it is, and so does every rule (`Parser.forward_perform`). So in any
session the cursor stands in the list it was made for, at the first end of input or
before it (`Cursor.StandsIn`), and there a tape answers as the cursor does, and reads
nothing from outside the list (`Cursor.StandsIn.tape_perform?`).

Key definitions: `Tape`, `Tape.perform?`, `Cursor.Forward`, `Cursor.StandsIn`, `Cursor.Reads`,
`Parser.StaysIn`, `Parser.ReachedIn`.
Key theorems: `Cursor.perform_cases`, `Parser.forward_perform`, `Cursor.StandsIn.tape_perform?`,
`Parser.after_standsIn`, `session_stays_in_list`.
-/
import Calculator.Parser.Session
import Calculator.Proofs.Calls
import Calculator.Proofs.Stops

namespace Calculator

open Calculator.Parser

/-! ### The whole list and an index -/

/-- A list of tokens and an index, which may lie outside the list. -/
structure Tape where
  tokens : List Token
  index : Nat

namespace Tape

/-- The token at the index, if the list has one there. -/
def current? (t : Tape) : Option Token := t.tokens[t.index]?

/-- The tokens from the index on, unless the list ends before it. -/
def rest? (t : Tape) : Option (List Token) :=
  if t.index ≤ t.tokens.length then some (t.tokens.drop t.index) else none

/-- Moves past the token at the index, which is given back; there is none at an end of input. -/
def advance? (t : Tape) : Option (Cursor.Answer × Tape) :=
  t.current?.map fun token =>
    if token.isEnd then
      (.token (.error ⟨.internal "Should not be at end", token.span.start⟩), t)
    else (.token (.ok token), ⟨t.tokens, t.index + 1⟩)

/-- Moves past the token at the index if it is of the wanted kind. -/
def eat? (t : Tape) (wanted : Token.Kind) (fault : String → Fault) :
    Option (Cursor.Answer × Tape) :=
  t.current?.bind fun token =>
    if token.isEnd then some (.token (.error ⟨.endedEarly, token.span.start⟩), t)
    else if token.kind = wanted then t.advance?
    else some (.token (.error ⟨fault token.text, token.span.start⟩), t)

/-- Whether an end of input is among the next `k` tokens. -/
def endWithin? (t : Tape) (k : Nat) : Option Bool :=
  t.rest?.map fun rest => (rest.take k).any Token.isEnd

/-- Moves past the next `k` tokens if no end of input is among them and their joined text is
`text`. -/
def lookahead? (t : Tape) (k : Nat) (text : String) : Option (Cursor.Answer × Tape) :=
  t.rest?.map fun rest =>
    if (rest.take k).any Token.isEnd then (.flag false, t)
    else if (rest.take k).foldr (fun token text => token.text ++ text) "" = text then
      (.flag true, ⟨t.tokens, t.index + k⟩)
    else (.flag false, t)

/-- What a tape answers to an operation, and the tape then; nothing if it would have to read what
the list does not have. -/
def perform? (t : Tape) : Cursor.Operation → Option (Cursor.Answer × Tape)
  | .advance => t.advance?
  | .eatOperator => t.eat? .punct .expectedOperator
  | .eatInteger => t.eat? .integer .expectedInteger
  | .endWithin k => (t.endWithin? k).map fun holds => (.flag holds, t)
  | .lookahead k text => t.lookahead? k text

end Tape

/-! ### What an operation can do to a cursor -/

namespace Cursor

theorem ext {c d : Cursor} (hindex : c.index = d.index) (hahead : c.ahead = d.ahead)
    (hlast : c.last = d.last) : c = d := by
  cases c
  cases d
  cases hindex
  cases hahead
  cases hlast
  rfl

/-- The cursor `d` is the cursor `c` after some of the tokens ahead of it. -/
def Forward (c d : Cursor) : Prop :=
  ∃ taken, c.ahead = taken ++ d.ahead ∧ d.index = c.index + taken.length ∧ d.last = c.last

namespace Forward

theorem refl (c : Cursor) : Forward c c := ⟨[], rfl, rfl, rfl⟩

theorem trans {c d e : Cursor} (h : Forward c d) (h' : Forward d e) : Forward c e := by
  obtain ⟨taken, hahead, hindex, hlast⟩ := h
  obtain ⟨more, hahead', hindex', hlast'⟩ := h'
  refine ⟨taken ++ more, ?_, ?_, hlast'.trans hlast⟩
  · rw [hahead, hahead', List.append_assoc]
  · rw [hindex', hindex, List.length_append, Nat.add_assoc]

theorem pass {c : Cursor} {k : Nat} (hk : k ≤ c.ahead.length) : Forward c (c.pass k) :=
  ⟨c.ahead.take k, (List.take_append_drop k c.ahead).symm, by simp [Cursor.pass, hk], rfl⟩

theorem of_moved {p q : Parser} {taken : List Token} (h : Moved p taken q) :
    Forward p.cursor q.cursor :=
  ⟨taken, h.ahead, h.index, h.last⟩

end Forward

/-- **An operation moves past tokens that are ahead, or leaves the cursor where it is**, and one
that is refused does the latter. -/
theorem perform_cases (c : Cursor) (op : Operation) : (c.perform op).2 = c ∨
    ∃ k, k ≤ c.ahead.length ∧ (c.perform op).2 = c.pass k ∧
      (c.perform op).1.isRefusal = false := by
  have hone : c.atEnd = false → 1 ≤ c.ahead.length := by
    intro hend
    refine List.length_pos_iff.2 fun hnil => ?_
    rw [(atEnd_iff c).2 hnil] at hend
    cases hend
  have heat : ∀ wanted fault, (c.taken (c.eat wanted fault)).2 = c ∨
      ∃ k, k ≤ c.ahead.length ∧ (c.taken (c.eat wanted fault)).2 = c.pass k ∧
        (c.taken (c.eat wanted fault)).1.isRefusal = false := by
    intro wanted fault
    unfold eat
    by_cases hend : c.atEnd = true
    · rw [if_pos hend]
      exact .inl rfl
    rw [if_neg hend]
    by_cases hkind : c.current.kind = wanted
    · rw [if_pos hkind]
      exact .inr ⟨1, hone (Bool.eq_false_iff.2 hend), rfl, rfl⟩
    · rw [if_neg hkind]
      exact .inl rfl
  cases op with
  | advance =>
    unfold perform advance
    by_cases hend : c.atEnd = true
    · rw [if_pos hend]
      exact .inl rfl
    · rw [if_neg hend]
      exact .inr ⟨1, hone (Bool.eq_false_iff.2 hend), rfl, rfl⟩
  | eatOperator => exact heat .punct .expectedOperator
  | eatInteger => exact heat .integer .expectedInteger
  | endWithin k => exact .inl rfl
  | lookahead k text =>
    simp only [perform]
    cases hfound : c.lookahead? k text with
    | none => exact .inl rfl
    | some d =>
      obtain ⟨hk, -, rfl⟩ := lookahead?_eq_some_iff.1 hfound
      exact .inr ⟨k, hk, rfl, rfl⟩

theorem forward_perform (c : Cursor) (op : Operation) : Forward c (c.perform op).2 := by
  rcases c.perform_cases op with hsame | ⟨k, hk, hpass, -⟩
  · rw [hsame]
    exact Forward.refl c
  · rw [hpass]
    exact Forward.pass hk

theorem perform_of_isRefusal {c : Cursor} {op : Operation}
    (h : (c.perform op).1.isRefusal = true) : (c.perform op).2 = c := by
  rcases c.perform_cases op with hsame | ⟨k, -, -, hdone⟩
  · exact hsame
  · rw [hdone] at h
    cases h

end Cursor

/-! ### What an operation can do to a parser -/

namespace Parser

/-- An operation moves the cursor forward, or leaves it where it is, and leaves the limit. -/
theorem forward_perform (p : Parser) (op : Operation) :
    p.cursor.Forward (p.perform op).2.cursor ∧ (p.perform op).2.limit = p.limit := by
  cases op with
  | cursor op => exact ⟨p.cursor.forward_perform op, rfl⟩
  | phrase rule =>
    obtain ⟨taken, hmoved⟩ := (runs_phrase rule p).moved
    exact ⟨.of_moved hmoved, hmoved.limit⟩
  | enterGroup position =>
    rw [perform_enterGroup]
    split <;> exact ⟨.refl _, rfl⟩
  | exitGroup => exact ⟨.refl _, rfl⟩
  | expectEnd => exact ⟨.refl _, rfl⟩
  | makeNumber value span => exact ⟨.refl _, rfl⟩
  | makeBinary op left right span => exact ⟨.refl _, rfl⟩

theorem forward_after : ∀ (p : Parser) (operations : List Operation),
    p.cursor.Forward (p.after operations).cursor ∧ (p.after operations).limit = p.limit
  | p, [] => ⟨.refl _, rfl⟩
  | p, op :: operations => by
    obtain ⟨hfirst, hlimit⟩ := p.forward_perform op
    obtain ⟨hrest, hlimit'⟩ := (p.perform op).2.forward_after operations
    exact ⟨hfirst.trans hrest, hlimit'.trans hlimit⟩

end Parser

theorem Calls.forward {a b : Goal × Parser} (h : Calls a b) : a.2.cursor.Forward b.2.cursor := by
  have hphrase : ∀ {rule : Rule} {p : Parser} {out : Outcome}, p.phrase rule = out →
      p.cursor.Forward out.parser.cursor := by
    rintro rule p _ rfl
    obtain ⟨taken, hmoved⟩ := (runs_phrase rule p).moved
    exact .of_moved hmoved
  have hpast : ∀ {p : Parser}, p.current.isEnd = false → p.cursor.Forward p.past.cursor :=
    fun {p} hend => ⟨[p.current], Parser.ahead_eq_cons hend, rfl, rfl⟩
  cases h with
  | atom p => exact .refl _
  | first p _ => exact .refl _
  | rest _ hfirst =>
    have hforward := hphrase hfirst
    exact hforward
  | right _ htake =>
    obtain ⟨-, hs, -, rfl⟩ := takeOperator?_eq_some htake
    exact hpast (Token.isEnd_eq_false_of_isSign hs)
  | more _ htake hright =>
    obtain ⟨-, hs, -, rfl⟩ := takeOperator?_eq_some htake
    exact (hpast (Token.isEnd_eq_false_of_isSign hs)).trans (hphrase hright)
  | @inside p q ho hopen =>
    rw [openGroup_eq ho] at hopen
    split at hopen
    · cases hopen
    · cases hopen
      exact hpast (Token.isEnd_eq_false_of_isPunct (Token.isPunct_of_isMark ho))

theorem forward_of_calls {a b : Goal × Parser} (h : Relation.ReflTransGen Calls a b) :
    a.2.cursor.Forward b.2.cursor := by
  induction h with
  | refl => exact .refl _
  | tail _ hcall ih => exact ih.trans hcall.forward

/-! ### A cursor in its list -/

/-- The index of the first end of input. -/
def Token.firstEnd (tokens : List Token) : Nat := tokens.findIdx Token.isEnd

/-- The tokens up to the first end of input, which is one of them. -/
def Token.upToEnd (tokens : List Token) : List Token := tokens.take (firstEnd tokens + 1)

namespace Cursor

/-- The cursor stands in the list after as many tokens as its index says, none of which ends the
input, and what it has ahead is what the list has from there up to the end of input. -/
def StandsIn (tokens : List Token) (c : Cursor) : Prop :=
  ∃ passed beyond, tokens = passed ++ (c.ahead ++ c.last :: beyond) ∧ passed.length = c.index ∧
    ∀ token ∈ passed, token.isEnd = false

theorem last_mem_take {c : Cursor} {k : Nat} (beyond : List Token) (hk : c.ahead.length < k) :
    c.last ∈ (c.ahead ++ c.last :: beyond).take k := by
  obtain ⟨n, rfl⟩ := Nat.exists_eq_add_of_lt hk
  rw [List.take_append, Nat.add_assoc, Nat.add_sub_cancel_left, List.take_succ_cons]
  exact List.mem_append_right _ List.mem_cons_self

theorem ofTokens_standsIn (tokens : List Token) (file : String) :
    (ofTokens tokens file).StandsIn (Token.terminated tokens file) := by
  obtain ⟨beyond, hsplit⟩ := exists_terminated_eq tokens file
  exact ⟨[], beyond, hsplit, rfl, fun _ h => absurd h List.not_mem_nil⟩

namespace StandsIn

variable {tokens : List Token} {c d : Cursor}

theorem forward (h : c.StandsIn tokens) (hforward : c.Forward d) : d.StandsIn tokens := by
  obtain ⟨passed, beyond, hsplit, hlength, hpassed⟩ := h
  obtain ⟨taken, hahead, hindex, hlast⟩ := hforward
  refine ⟨passed ++ taken, beyond, ?_, ?_, fun token htoken => ?_⟩
  · rw [hsplit, hahead, hlast, List.append_assoc, List.append_assoc]
  · rw [List.length_append, hlength, hindex]
  · rcases List.mem_append.1 htoken with htoken | htoken
    · exact hpassed token htoken
    · exact c.isEnd_of_mem token (by rw [hahead]; exact List.mem_append_left _ htoken)

/-- The list from the index on: what is ahead, the end of input, and more that is out of reach. -/
theorem drop_eq (h : c.StandsIn tokens) :
    ∃ beyond, tokens.drop c.index = c.ahead ++ c.last :: beyond := by
  obtain ⟨passed, beyond, hsplit, hlength, -⟩ := h
  exact ⟨beyond, by rw [hsplit, ← hlength, List.drop_left]⟩

theorem getElem?_add (h : c.StandsIn tokens) {k : Nat} (hk : k ≤ c.ahead.length) :
    tokens[c.index + k]? = (c.ahead ++ [c.last])[k]? := by
  obtain ⟨beyond, hdrop⟩ := h.drop_eq
  rw [← List.getElem?_drop, hdrop, List.append_cons]
  exact List.getElem?_append_left (by simp; omega)

theorem getElem?_index (h : c.StandsIn tokens) : tokens[c.index]? = some c.current := by
  have hget := h.getElem?_add (Nat.zero_le _)
  rw [Nat.add_zero] at hget
  rw [hget, current]
  cases c.ahead <;> rfl

theorem firstEnd_eq (h : c.StandsIn tokens) :
    Token.firstEnd tokens = c.index + c.ahead.length := by
  obtain ⟨passed, beyond, hsplit, hlength, hpassed⟩ := h
  have hnone : ∀ {before : List Token}, (∀ token ∈ before, token.isEnd = false) →
      before.findIdx Token.isEnd = before.length := by
    intro before hbefore
    exact List.findIdx_eq_length.2 hbefore
  have hlast : (c.last :: beyond).findIdx Token.isEnd = 0 := by
    rw [List.findIdx_cons, c.isEnd_last]
    rfl
  rw [Token.firstEnd, hsplit, List.findIdx_append, List.findIdx_append, hnone hpassed,
    hnone c.isEnd_of_mem, hlast, hlength]
  simp [Nat.add_comm]

theorem index_le (h : c.StandsIn tokens) : c.index ≤ Token.firstEnd tokens := by
  rw [h.firstEnd_eq]
  exact Nat.le_add_right _ _

theorem index_le_length (h : c.StandsIn tokens) : c.index ≤ tokens.length :=
  Nat.le_trans h.index_le List.findIdx_le_length

theorem reach_eq (h : c.StandsIn tokens) :
    c.ahead ++ [c.last] = (Token.upToEnd tokens).drop c.index := by
  obtain ⟨beyond, hdrop⟩ := h.drop_eq
  have hlength : (c.ahead ++ [c.last]).length = c.index + c.ahead.length + 1 - c.index := by
    rw [List.length_append, List.length_singleton]
    omega
  rw [Token.upToEnd, h.firstEnd_eq, List.drop_take, hdrop, List.append_cons c.ahead c.last beyond,
    List.take_left' hlength]

/-! A tape and a cursor at the same place of a list answer alike. -/

theorem tape_current? (h : c.StandsIn tokens) : (Tape.mk tokens c.index).current? = some c.current :=
  h.getElem?_index

theorem tape_advance? (h : c.StandsIn tokens) : (Tape.mk tokens c.index).advance? =
    some ((c.taken c.advance).1, ⟨tokens, (c.taken c.advance).2.index⟩) := by
  rw [Tape.advance?, h.tape_current?, Option.map_some, advance]
  have hend : c.atEnd = c.current.isEnd := rfl
  rw [hend]
  split <;> rfl

theorem tape_eat? (h : c.StandsIn tokens) (wanted : Token.Kind) (fault : String → Fault) :
    (Tape.mk tokens c.index).eat? wanted fault = some ((c.taken (c.eat wanted fault)).1,
      ⟨tokens, (c.taken (c.eat wanted fault)).2.index⟩) := by
  rw [Tape.eat?, h.tape_current?, Option.bind_some, h.tape_advance?, eat, advance]
  have hend : c.atEnd = c.current.isEnd := rfl
  rw [hend]
  by_cases hlast : c.current.isEnd = true
  · rw [if_pos hlast, if_pos hlast]
    rfl
  rw [if_neg hlast, if_neg hlast, if_neg hlast]
  split <;> rfl

theorem tape_rest? (h : c.StandsIn tokens) : ∃ rest, (Tape.mk tokens c.index).rest? = some rest ∧
    ∀ k, (rest.take k).any Token.isEnd = c.endWithin k ∧
      (c.endWithin k = false → rest.take k = c.ahead.take k) := by
  obtain ⟨beyond, hdrop⟩ := h.drop_eq
  refine ⟨_, if_pos h.index_le_length, fun k => ?_⟩
  show ((tokens.drop c.index).take k).any Token.isEnd = _ ∧ _
  rw [hdrop]
  by_cases hk : k ≤ c.ahead.length
  · have hno : c.endWithin k = false := by
      rw [Bool.eq_false_iff, ne_eq, endWithin_iff]
      exact Nat.not_lt.2 hk
    rw [List.take_append_of_le_length hk, hno]
    refine ⟨?_, fun _ => rfl⟩
    rw [List.any_eq_false]
    intro token htoken
    rw [c.isEnd_of_mem token (List.mem_of_mem_take htoken)]
    exact Bool.false_ne_true
  · have hyes : c.endWithin k = true := (endWithin_iff c k).2 (Nat.lt_of_not_le hk)
    rw [hyes]
    have hlast := last_mem_take beyond (Nat.lt_of_not_le hk)
    exact ⟨List.any_eq_true.2 ⟨c.last, hlast, c.isEnd_last⟩, nofun⟩

/-- **A tape answers as the cursor does**, and goes where the cursor goes. -/
theorem tape_perform? (h : c.StandsIn tokens) (op : Operation) :
    (Tape.mk tokens c.index).perform? op =
      some ((c.perform op).1, ⟨tokens, (c.perform op).2.index⟩) := by
  cases op with
  | advance => exact h.tape_advance?
  | eatOperator => exact h.tape_eat? .punct .expectedOperator
  | eatInteger => exact h.tape_eat? .integer .expectedInteger
  | endWithin k =>
    obtain ⟨rest, hrest, hnext⟩ := h.tape_rest?
    rw [Tape.perform?, Tape.endWithin?, hrest, Option.map_some, Option.map_some, (hnext k).1]
    rfl
  | lookahead k text =>
    obtain ⟨rest, hrest, hnext⟩ := h.tape_rest?
    rw [Tape.perform?, Tape.lookahead?, hrest, Option.map_some, (hnext k).1, perform,
      Cursor.lookahead?]
    by_cases hend : c.endWithin k = true
    · rw [if_pos hend, if_pos hend]
      rfl
    rw [if_neg hend, if_neg hend, (hnext k).2 (Bool.eq_false_iff.2 hend)]
    by_cases htext : c.textAhead k = text
    · rw [if_pos htext]
      exact congrArg some (if_pos htext)
    · rw [if_neg htext]
      exact congrArg some (if_neg htext)

end StandsIn

end Cursor

/-! ### A session -/

/-- The cursor reads the list at its index, which is not past the first end of input: the current
token is the one that the list has there, and in reach is what it has from there up to that end. -/
structure Cursor.Reads (tokens : List Token) (c : Cursor) : Prop where
  index_le : c.index ≤ Token.firstEnd tokens
  current_eq : tokens[c.index]? = some c.current
  reach_eq : c.ahead ++ [c.last] = (Token.upToEnd tokens).drop c.index

/-- The parser reads the list, and no operation makes it do anything else. -/
structure Parser.StaysIn (tokens : List Token) (p : Parser) : Prop where
  reads : p.cursor.Reads tokens
  /-- Nor does it leave the list for a moment, wherever a rule takes it. -/
  reads_within : ∀ (rule : Rule) (g : Goal) (q : Parser),
    Relation.ReflTransGen Calls (.phrase rule, p) (g, q) → q.cursor.Reads tokens
  /-- No operation moves it back. -/
  index_le : ∀ op, p.cursor.index ≤ (p.perform op).2.cursor.index
  /-- All that its cursor has to read is in the list. -/
  tape_eq : ∀ op, (Tape.mk tokens p.cursor.index).perform? op =
    some ((p.cursor.perform op).1, ⟨tokens, (p.cursor.perform op).2.index⟩)
  /-- A step of its cursor that is refused changes nothing. -/
  of_isRefusal : ∀ op, (p.cursor.perform op).1.isRefusal = true → (p.perform (.cursor op)).2 = p

theorem Cursor.StandsIn.reads {tokens : List Token} {c : Cursor} (h : c.StandsIn tokens) :
    c.Reads tokens :=
  ⟨h.index_le, h.getElem?_index, h.reach_eq⟩

namespace Parser

/-- In a session the cursor stands in its list. -/
theorem after_standsIn (tokens : List Token) (file : String) (limit : Nat)
    (operations : List Operation) :
    ((start tokens file limit).after operations).cursor.StandsIn (Token.terminated tokens file) :=
  (Cursor.ofTokens_standsIn tokens file).forward
    (forward_after (start tokens file limit) operations).1

theorem staysIn_of_standsIn {tokens : List Token} {p : Parser} (h : p.cursor.StandsIn tokens) :
    p.StaysIn tokens where
  reads := h.reads
  reads_within rule g q hcalls := (h.forward (forward_of_calls hcalls)).reads
  index_le op := by
    obtain ⟨⟨taken, -, hindex, -⟩, -⟩ := p.forward_perform op
    rw [hindex]
    exact Nat.le_add_right _ _
  tape_eq := h.tape_perform?
  of_isRefusal op hrefused := by
    show { p with cursor := (p.cursor.perform op).2 } = p
    rw [Cursor.perform_of_isRefusal hrefused]

theorem start_eq_of_upToEnd {tokens others : List Token} {file : String} (limit : Nat)
    (h : Token.upToEnd (Token.terminated others file) =
      Token.upToEnd (Token.terminated tokens file)) :
    start others file limit = start tokens file limit := by
  have hreach : (Cursor.ofTokens others file).ahead ++ [(Cursor.ofTokens others file).last] =
      (Cursor.ofTokens tokens file).ahead ++ [(Cursor.ofTokens tokens file).last] := by
    rw [(Cursor.ofTokens_standsIn others file).reach_eq,
      (Cursor.ofTokens_standsIn tokens file).reach_eq, h]
    rfl
  obtain ⟨hahead, hlast⟩ := List.append_inj' hreach rfl
  have hcursor : Cursor.ofTokens others file = Cursor.ofTokens tokens file :=
    Cursor.ext rfl hahead (List.cons.inj hlast).1
  rw [start, start, hcursor]

end Parser

/-! ### Every state on the way -/

/-- The state is one that a session comes to, or one in which a rule that is called there takes up
something in its turn. -/
def Parser.ReachedIn (tokens : List Token) (file : String) (limit : Nat) (p : Parser) : Prop :=
  ∃ (operations : List Operation) (rule : Rule) (g : Goal),
    Relation.ReflTransGen Calls (.phrase rule, (start tokens file limit).after operations) (g, p)

namespace Parser

variable {tokens : List Token} {file : String} {limit : Nat} {p : Parser}

theorem reachedIn_after (tokens : List Token) (file : String) (limit : Nat)
    (operations : List Operation) :
    ((start tokens file limit).after operations).ReachedIn tokens file limit :=
  ⟨operations, .sum, _, .refl⟩

theorem ReachedIn.standsIn (h : p.ReachedIn tokens file limit) :
    p.cursor.StandsIn (Token.terminated tokens file) := by
  obtain ⟨operations, rule, g, hcalls⟩ := h
  exact (after_standsIn tokens file limit operations).forward (forward_of_calls hcalls)

theorem ReachedIn.limit_eq (h : p.ReachedIn tokens file limit) : p.limit = limit := by
  obtain ⟨operations, rule, g, hcalls⟩ := h
  obtain ⟨taken, -, -, hlimit, -⟩ := reaches_of_calls hcalls
  have hlimit : p.limit = ((start tokens file limit).after operations).limit := hlimit
  exact hlimit.trans (forward_after (start tokens file limit) operations).2

end Parser

/-- **No session leaves its list.** A list that a parser is made for has an end of input. Whatever
operations come in whatever order, the cursor stays in the list, at the first end of input or before
it: each read is of a token that the list has, no operation moves it back, and a step that is
refused moves nothing. What comes after the first end of input is never seen: two lists
that agree up to it, and in it, give the same answers and the same states in every session. -/
theorem session_stays_in_list (tokens : List Token) (file : String) (limit : Nat) :
    (∃ token ∈ Token.terminated tokens file, token.isEnd = true) ∧
    (∀ operations : List Parser.Operation,
      ((Parser.start tokens file limit).after operations).StaysIn (Token.terminated tokens file)) ∧
    ∀ others : List Token, Token.upToEnd (Token.terminated others file) =
        Token.upToEnd (Token.terminated tokens file) →
      ∀ operations : List Parser.Operation,
        (Parser.start others file limit).answers operations =
          (Parser.start tokens file limit).answers operations ∧
        (Parser.start others file limit).after operations =
          (Parser.start tokens file limit).after operations := by
  refine ⟨Token.exists_isEnd_terminated tokens file, fun operations => ?_,
    fun others h operations => ?_⟩
  · exact Parser.staysIn_of_standsIn (Parser.after_standsIn tokens file limit operations)
  · rw [Parser.start_eq_of_upToEnd limit h]
    exact ⟨rfl, rfl⟩

end Calculator
