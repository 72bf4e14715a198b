/-
# One phrase in the middle of a list

A rule can be called wherever a session has left the parser. It succeeds exactly if a
phrase stands at the index of its cursor that it would not make longer, and then the
cursor moves to the end of that phrase (`Parser.phrase_eq_ok_iff`). In the list
(`PhraseAt`) this is a matter of the tokens from one index up to another, of the room
that the open groups leave, and of one token more, which only has to stop the rule. So
what comes after the phrase has no other influence (`PhraseAt.of_extract_eq`).

Key definitions: `PhraseAt`.
Key theorems: `Parser.phrase_eq_ok_iff`, `phrase_iff_phraseAt`, `PhraseAt.of_extract_eq`,
`phrase_takes_one_phrase`.
-/
import Calculator.Proofs.Reach

namespace Calculator

open Calculator.Parser

/-- In the list a phrase of the rule with the expression stands from the index `i` up to the index
`j`, with at most `room` of its groups open at once, and is followed by a token that the rule does not
go on with. -/
structure PhraseAt (rule : Rule) (room : Nat) (tokens : List Token) (i j : Nat) (e : Expr) :
    Prop where
  isEnd_eq_false : ∀ token ∈ tokens.extract i j, token.isEnd = false
  derives : Derives rule room (tokens.extract i j) e
  stops : ∃ token, tokens[j]? = some token ∧ rule.Stops token

/-! ### A phrase that lies ahead -/

/-- **A rule takes the phrase that lies ahead of it, up to a token that it does not go on with**, and
fails if there is none. -/
theorem Parser.phrase_eq_ok_iff {rule : Rule} {p : Parser} {e : Expr} {j : Nat} :
    ((p.phrase rule).result = .ok e ∧ (p.phrase rule).parser.cursor.index = j) ↔
      ∃ taken rest, p.cursor.ahead = taken ++ rest ∧ p.cursor.index + taken.length = j ∧
        Derives rule (p.limit - p.depth) taken e ∧ rule.Stops (rest.headD p.cursor.last) := by
  constructor
  · rintro ⟨hresult, rfl⟩
    have hruns := runs_phrase rule p
    obtain ⟨taken, htook, hderives⟩ := hruns.sound e hresult
    have hstops := hruns.stops trivial e hresult
    rw [(htook.current_eq htook.ahead).2] at hstops
    exact ⟨taken, _, htook.ahead, htook.index.symm, hderives, hstops⟩
  · rintro ⟨taken, rest, hahead, rfl, hderives, hstops⟩
    obtain ⟨q, htook, hphrase⟩ := hderives.phrase_eq hahead (Nat.le_refl _)
      fun tighter hr => hstops.tighter hr
    have hcurrent : rule.Stops q.current := by
      rw [(htook.current_eq hahead).2]
      exact hstops
    rw [hphrase, resume_of_stops hcurrent]
    exact ⟨rfl, htook.index⟩

theorem Parser.cursor_phrase_eq {rule : Rule} {p : Parser} {e : Expr} {j : Nat}
    (h : (p.phrase rule).result = .ok e) (hj : (p.phrase rule).parser.cursor.index = j) :
    (p.phrase rule).parser.cursor = p.cursor.pass (j - p.cursor.index) := by
  obtain ⟨taken, htook, -⟩ := (runs_phrase rule p).sound e h
  have hlength : j - p.cursor.index = taken.length := by
    rw [← hj, htook.index, Nat.add_sub_cancel_left]
  rw [hlength]
  refine Cursor.ext htook.index ?_ htook.last
  show _ = p.cursor.ahead.drop taken.length
  rw [htook.ahead, List.drop_left]

/-! ### The same in the list -/

section List

variable {tokens : List Token} {c : Cursor}

theorem Cursor.StandsIn.extract_eq (h : c.StandsIn tokens) {taken rest : List Token}
    (hahead : c.ahead = taken ++ rest) :
    tokens.extract c.index (c.index + taken.length) = taken := by
  obtain ⟨beyond, hdrop⟩ := h.drop_eq
  rw [List.extract_eq_take_drop, hdrop, hahead, Nat.add_sub_cancel_left, List.append_assoc,
    List.take_left]

theorem Cursor.StandsIn.getElem?_eq (h : c.StandsIn tokens) {taken rest : List Token}
    (hahead : c.ahead = taken ++ rest) :
    tokens[c.index + taken.length]? = some (rest.headD c.last) := by
  rw [h.getElem?_add (by rw [hahead, List.length_append]; exact Nat.le_add_right _ _), hahead,
    List.append_assoc, List.getElem?_append_right (Nat.le_refl _), Nat.sub_self]
  cases rest <;> rfl

theorem Cursor.StandsIn.exists_ahead_eq (h : c.StandsIn tokens) {j : Nat} (hj : c.index ≤ j)
    (hends : ∀ token ∈ tokens.extract c.index j, token.isEnd = false) :
    ∃ rest, c.ahead = tokens.extract c.index j ++ rest ∧
      c.index + (tokens.extract c.index j).length = j := by
  obtain ⟨beyond, hdrop⟩ := h.drop_eq
  rw [List.extract_eq_take_drop, hdrop] at hends ⊢
  have hle : j - c.index ≤ c.ahead.length := by
    refine Nat.le_of_not_lt fun hlong => ?_
    -- the end of input would be among them
    have hlast := hends c.last (last_mem_take beyond hlong)
    rw [c.isEnd_last] at hlast
    cases hlast
  rw [List.take_append_of_le_length hle]
  refine ⟨c.ahead.drop (j - c.index), (List.take_append_drop _ _).symm, ?_⟩
  rw [List.length_take, Nat.min_eq_left hle]
  omega

end List

/-- A rule takes the phrase that stands in the list at the index of the cursor. -/
theorem phrase_iff_phraseAt {tokens : List Token} {p : Parser} (h : p.cursor.StandsIn tokens)
    (rule : Rule) (e : Expr) (j : Nat) :
    ((p.phrase rule).result = .ok e ∧ (p.phrase rule).parser.cursor.index = j) ↔
      PhraseAt rule (p.limit - p.depth) tokens p.cursor.index j e := by
  rw [phrase_eq_ok_iff]
  constructor
  · rintro ⟨taken, rest, hahead, rfl, hderives, hstops⟩
    have hextract := h.extract_eq hahead
    exact ⟨by rw [hextract]; exact hderives.isEnd_eq_false, by rw [hextract]; exact hderives,
      _, h.getElem?_eq hahead, hstops⟩
  · rintro ⟨hends, hderives, token, htoken, hstops⟩
    have hne := hderives.ne_nil
    have hj : p.cursor.index ≤ j := by
      refine Nat.le_of_not_lt fun hlt => hne ?_
      rw [List.extract_eq_take_drop, Nat.sub_eq_zero_of_le (Nat.le_of_lt hlt), List.take_zero]
    obtain ⟨rest, hahead, hlength⟩ := h.exists_ahead_eq hj hends
    have hget := h.getElem?_eq hahead
    rw [hlength, htoken, Option.some.injEq] at hget
    exact ⟨_, rest, hahead, hlength, hderives, by rw [← hget]; exact hstops⟩

namespace PhraseAt

variable {rule : Rule} {room : Nat} {tokens : List Token} {i j : Nat} {e : Expr}

theorem lt (h : PhraseAt rule room tokens i j e) : i < j := by
  refine Nat.lt_of_not_le fun hle => h.derives.ne_nil ?_
  rw [List.extract_eq_take_drop, Nat.sub_eq_zero_of_le hle, List.take_zero]

/-- The same tokens are the same phrase at any place with as much room, if what follows them stops
the rule there too. -/
theorem of_extract_eq (h : PhraseAt rule room tokens i j e) {others : List Token} {i' j' room' : Nat}
    (hextract : others.extract i' j' = tokens.extract i j) (hroom : room ≤ room')
    (hstops : ∃ token, others[j']? = some token ∧ rule.Stops token) :
    PhraseAt rule room' others i' j' e :=
  ⟨by rw [hextract]; exact h.isEnd_eq_false, by rw [hextract]; exact h.derives.mono hroom, hstops⟩

end PhraseAt

/-- Wherever a session has left the parser, a rule takes the phrase that stands there. -/
theorem phrase_after_iff (tokens : List Token) (file : String) (limit : Nat)
    (operations : List Operation) (rule : Rule) (e : Expr) (j : Nat) :
    let p := (start tokens file limit).after operations
    ((p.phrase rule).result = .ok e ∧ (p.phrase rule).parser.cursor.index = j) ↔
      PhraseAt rule (limit - p.depth) (Token.terminated tokens file) p.cursor.index j e := by
  intro p
  have hlimit : p.limit = limit := (forward_after (start tokens file limit) operations).2
  rw [← hlimit]
  exact phrase_iff_phraseAt (after_standsIn tokens file limit operations) rule e j

/-- **A rule takes exactly one phrase and leaves the rest.** Wherever a session has left the parser,
a rule succeeds with an expression and moves the cursor from its index to another exactly if the
tokens in between are a phrase of the rule with that expression, no more groups of it are open at once
than the open ones leave room for, and the next token is no operator that the rule goes on with. At
most one phrase is there, and it has a token. The cursor has moved past the phrase and is otherwise as
it was; and before any other tokens that stop the rule, in any other session, the same phrase is
taken with as much room. -/
theorem phrase_takes_one_phrase (tokens : List Token) (file : String) (limit : Nat)
    (operations : List Operation) (rule : Rule) :
    let list := Token.terminated tokens file
    let p := (start tokens file limit).after operations
    let i := p.cursor.index
    (∀ e j, ((p.phrase rule).result = .ok e ∧ (p.phrase rule).parser.cursor.index = j) ↔
      PhraseAt rule (limit - p.depth) list i j e) ∧
    ∀ e j, PhraseAt rule (limit - p.depth) list i j e →
      i < j ∧ (∀ e' j', PhraseAt rule (limit - p.depth) list i j' e' → j' = j ∧ e' = e) ∧
      (p.phrase rule).parser.cursor = p.cursor.pass (j - i) ∧
      ∀ (others : List Token) (name : String) (limit' : Nat) (operations' : List Operation),
        let q := (start others name limit').after operations'
        let i' := q.cursor.index
        limit - p.depth ≤ limit' - q.depth →
        (Token.terminated others name).extract i' (i' + (j - i)) = list.extract i j →
        (∃ token, (Token.terminated others name)[i' + (j - i)]? = some token ∧ rule.Stops token) →
        (q.phrase rule).result = .ok e ∧ (q.phrase rule).parser.cursor = q.cursor.pass (j - i) := by
  intro list p i
  refine ⟨phrase_after_iff tokens file limit operations rule, fun e j h => ?_⟩
  obtain ⟨hresult, hindex⟩ := (phrase_after_iff tokens file limit operations rule e j).2 h
  refine ⟨h.lt, fun e' j' h' => ?_, cursor_phrase_eq hresult hindex, ?_⟩
  · obtain ⟨hresult', hindex'⟩ := (phrase_after_iff tokens file limit operations rule e' j').2 h'
    exact ⟨hindex'.symm.trans hindex, Except.ok.inj (hresult'.symm.trans hresult)⟩
  · intro others name limit' operations' q i' hroom hextract hstops
    obtain ⟨hresult', hindex'⟩ := (phrase_after_iff others name limit' operations' rule e _).2
      (h.of_extract_eq hextract hroom hstops)
    have hcursor := cursor_phrase_eq hresult' hindex'
    rw [Nat.add_sub_cancel_left] at hcursor
    exact ⟨hresult', hcursor⟩

end Calculator
