/-
# Tests and searches of a shape

A shape of the table is looked for at the start of a text in two ways. A test says whether
some start of the text is a lexeme of the shape, and a search gives the longest start that
is one. Both try the starts of the text one by one and know only which texts are lexemes.
They agree with each other and with the shape: a shape passes the test exactly if it fits,
and the search finds what it splits off then, which is not empty.

Key definitions: `Pattern.accepts`, `Pattern.test`, `Pattern.search?`.
Key theorems: `Pattern.test_eq_fits`, `Pattern.search?_eq`, `Pattern.exists_search?_of_test`.
-/
import Calculator.Proofs.Reading
import Mathlib.Data.List.Infix

namespace Calculator

open Text

namespace Pattern

/-- Whether the text is a lexeme of the shape. -/
def accepts : Pattern → List Char → Bool
  | digits, text => !text.isEmpty && text.all Char.isDigit
  | blanks, text => !text.isEmpty && text.all isBlank
  | mark c, text => text == [c]

/-- Whether some start of the text is a lexeme of the shape. -/
def test (pattern : Pattern) (text : List Char) : Bool := text.inits.any pattern.accepts

/-- The longest start of the text that is a lexeme of the shape. -/
def search? (pattern : Pattern) (text : List Char) : Option (List Char) :=
  text.inits.reverse.find? pattern.accepts

theorem accepts_nil (pattern : Pattern) : pattern.accepts [] = false := by
  cases pattern <;> rfl

theorem starts_of_accepts {pattern : Pattern} {c : Char} {text : List Char}
    (h : pattern.accepts (c :: text) = true) : pattern.starts c = true := by
  cases pattern with
  | digits =>
    simp only [accepts, List.all_cons, Bool.and_eq_true] at h
    exact h.2.1
  | blanks =>
    simp only [accepts, List.all_cons, Bool.and_eq_true] at h
    exact h.2.1
  | mark d =>
    simp only [accepts, beq_iff_eq, List.cons.injEq] at h
    simpa only [starts, decide_eq_true_eq] using h.1

theorem accepts_eq_false {pattern : Pattern} {text : List Char} (h : pattern.fits text = false)
    {lexeme : List Char} (hstart : lexeme <+: text) : pattern.accepts lexeme = false := by
  cases lexeme with
  | nil => exact pattern.accepts_nil
  | cons c lexeme =>
    obtain ⟨rest, rfl⟩ := hstart
    rw [List.cons_append, fits_cons] at h
    rw [Bool.eq_false_iff] at h ⊢
    exact fun haccepts => h (starts_of_accepts haccepts)

theorem accepts_split {pattern : Pattern} {text : List Char} (h : pattern.fits text = true) :
    pattern.accepts (pattern.split text).1 = true := by
  cases pattern with
  | digits => simpa [accepts, fits, split] using h
  | blanks => simpa [accepts, fits, split] using h
  | mark c =>
    cases text with
    | nil => rw [fits_nil] at h; cases h
    | cons d text =>
      have hd : d = c := by simpa [starts] using h
      simp [accepts, split, hd]

theorem accepts_longer {pattern : Pattern} {text : List Char} (h : pattern.fits text = true)
    {more : List Char} (hmore : more <+: (pattern.split text).2) (hne : more ≠ []) :
    pattern.accepts ((pattern.split text).1 ++ more) = false := by
  obtain ⟨rest, hrest⟩ := hmore
  cases more with
  | nil => exact absurd rfl hne
  | cons c more =>
    cases pattern with
    | digits =>
      have hdrop : text.dropWhile Char.isDigit = c :: more ++ rest := hrest.symm
      have hc : c.isDigit = false := head_dropWhile (by rw [hdrop]; rfl)
      simp [accepts, split, hc]
    | blanks =>
      have hdrop : text.dropWhile isBlank = c :: more ++ rest := hrest.symm
      have hc : isBlank c = false := head_dropWhile (by rw [hdrop]; rfl)
      simp [accepts, split, hc]
    | mark d =>
      cases text with
      | nil => rw [fits_nil] at h; cases h
      | cons e text =>
        have he : e = d := by simpa [starts] using h
        simp [accepts, split, he]

/-- **A shape passes the test exactly if it fits.** -/
theorem test_eq_fits (pattern : Pattern) (text : List Char) :
    pattern.test text = pattern.fits text := by
  cases hfits : pattern.fits text with
  | false =>
    rw [test, List.any_eq_false]
    intro lexeme hlexeme
    rw [accepts_eq_false hfits ((List.mem_inits _ _).1 hlexeme)]
    exact Bool.false_ne_true
  | true =>
    rw [test, List.any_eq_true]
    refine ⟨(pattern.split text).1, (List.mem_inits _ _).2 ?_, accepts_split hfits⟩
    exact ⟨(pattern.split text).2, pattern.split_append text⟩

theorem prefix_of_mem_tail_inits {text start : List Char} (h : start ∈ text.inits.tail) :
    start <+: text ∧ start ≠ [] := by
  refine ⟨(List.mem_inits _ _).1 (List.mem_of_mem_tail h), ?_⟩
  cases text with
  | nil => cases h
  | cons c text =>
    rw [List.inits_cons, List.tail_cons, List.mem_map] at h
    obtain ⟨rest, -, rfl⟩ := h
    exact List.cons_ne_nil c rest

theorem exists_inits_reverse_eq (front rest : List Char) : ∃ longer shorter,
    (front ++ rest).inits.reverse = longer ++ front :: shorter ∧
      ∀ start ∈ longer, ∃ more, more <+: rest ∧ more ≠ [] ∧ start = front ++ more := by
  have htails : ∀ text : List Char, ∃ shorter, text.tails = text :: shorter := by
    intro text
    cases text with
    | nil => exact ⟨[], rfl⟩
    | cons c text => exact ⟨text.tails, List.tails_cons c text⟩
  obtain ⟨shorter, hshorter⟩ := htails front.reverse
  refine ⟨(rest.inits.tail.map (front ++ ·)).reverse, shorter.map List.reverse, ?_, ?_⟩
  · rw [List.inits_append, List.reverse_append, List.inits_eq_tails front, List.reverse_reverse,
      hshorter, List.map_cons, List.reverse_reverse]
  · intro start hstart
    obtain ⟨more, hmore, rfl⟩ := List.mem_map.1 (List.mem_reverse.1 hstart)
    obtain ⟨hrest, hne⟩ := prefix_of_mem_tail_inits hmore
    exact ⟨more, hrest, hne, rfl⟩

/-- **The search finds what a fitting shape splits off**, and nothing if the shape does not fit. -/
theorem search?_eq (pattern : Pattern) (text : List Char) :
    pattern.search? text =
      if pattern.fits text then some (pattern.split text).1 else none := by
  split
  · next hfits =>
    obtain ⟨longer, shorter, hinits, hlonger⟩ :=
      exists_inits_reverse_eq (pattern.split text).1 (pattern.split text).2
    rw [pattern.split_append] at hinits
    have hnone : longer.find? pattern.accepts = none := by
      rw [List.find?_eq_none]
      intro l hl
      obtain ⟨more, hmore, hne, rfl⟩ := hlonger l hl
      rw [accepts_longer hfits hmore hne]
      exact Bool.false_ne_true
    rw [search?, hinits, List.find?_append, hnone, List.find?_cons_of_pos (accepts_split hfits)]
    rfl
  · next hfits =>
    rw [Bool.not_eq_true] at hfits
    rw [search?, List.find?_eq_none]
    intro lexeme hlexeme
    rw [accepts_eq_false hfits ((List.mem_inits _ _).1 (List.mem_reverse.1 hlexeme))]
    exact Bool.false_ne_true

/-- A search after a test finds at least a byte. -/
theorem exists_search?_of_test {pattern : Pattern} {text : List Char}
    (h : pattern.test text = true) :
    ∃ lexeme, pattern.search? text = some lexeme ∧ 0 < byteLength lexeme := by
  rw [test_eq_fits] at h
  refine ⟨(pattern.split text).1, ?_, ?_⟩
  · rw [search?_eq, h]
    rfl
  · rw [fits, Bool.not_eq_true', List.isEmpty_eq_false_iff] at h
    exact Nat.lt_of_lt_of_le (List.length_pos_iff.2 h) (length_le_byteLength _)

end Pattern

end Calculator
