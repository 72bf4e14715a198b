/-
# Reading one lexeme

What a reading does with the next piece of a source, said of the characters
alone. A lexeme is a mark, or a run of digits that stands for a 64-bit integer;
a gap is a stretch of blanks. A reading passes a gap and makes nothing of it,
makes a token of a lexeme, and fails at a run of digits that stands for too
large a number. A run of digits is read to its end, so it must not go on in
what follows it.

Key definitions: `Text.IsGap`, `Text.IsRun`, `Text.IsLexeme`, `Text.NoDigit`, `lexemeToken`.
Key theorems: `Reading.finish_gap`, `Reading.finish_lexeme`, `Reading.finish_bigRun`,
`Reading.next_cases`.
-/
import Calculator.Token.Tokenize

namespace Calculator

namespace Text

/-! ### Gaps, runs and marks -/

/-- The characters that are lexemes by themselves. -/
def marks : List Char := ['(', ')', '+', '-', '*', '/']

/-- The text is blank, or empty. -/
def IsGap (text : List Char) : Prop := ∀ c ∈ text, isBlank c = true

/-- The text is a run of digits. -/
def IsRun (text : List Char) : Prop := text ≠ [] ∧ ∀ c ∈ text, c.isDigit = true

/-- The text is a mark, or a run of digits whose number is below 2 ^ 63. -/
def IsLexeme (text : List Char) : Prop :=
  (∃ c ∈ marks, text = [c]) ∨ (IsRun text ∧ natOfDigits text < 0x8000000000000000)

/-- The text does not start with a digit. -/
def NoDigit (text : List Char) : Prop := ∀ c, text.head? = some c → c.isDigit = false

theorem isDigit_of_mem_marks (c : Char) (hc : c ∈ marks) : c.isDigit = false := by
  have hall : marks.all (fun d => !d.isDigit) = true := by decide
  simpa using List.all_eq_true.1 hall c hc

theorem isBlank_of_mem_marks (c : Char) (hc : c ∈ marks) : isBlank c = false := by
  have hall : marks.all (fun d => !isBlank d) = true := by decide
  simpa using List.all_eq_true.1 hall c hc

theorem isDigit_of_isBlank {c : Char} (h : isBlank c = true) : c.isDigit = false := by
  rw [Bool.eq_false_iff]
  intro hd
  rw [isBlank_of_isDigit hd] at h
  cases h

theorem not_isRun_mark {c : Char} (hc : c ∈ marks) : ¬ IsRun [c] := by
  intro h
  have := h.2 c (List.mem_singleton.2 rfl)
  rw [isDigit_of_mem_marks c hc] at this
  cases this

theorem IsLexeme.head_not_blank {text : List Char} (h : IsLexeme text) :
    ∃ c rest, text = c :: rest ∧ isBlank c = false := by
  rcases h with ⟨c, hc, rfl⟩ | ⟨⟨hne, hall⟩, -⟩
  · exact ⟨c, [], rfl, isBlank_of_mem_marks c hc⟩
  · cases text with
    | nil => exact absurd rfl hne
    | cons c rest => exact ⟨c, rest, rfl, isBlank_of_isDigit (hall c List.mem_cons_self)⟩

theorem IsLexeme.noDigit_iff {lexeme : List Char} (h : IsLexeme lexeme) (rest : List Char) :
    NoDigit (lexeme ++ rest) ↔ ¬ IsRun lexeme := by
  rcases h with ⟨c, hc, rfl⟩ | ⟨hrun, -⟩
  · refine ⟨fun _ => not_isRun_mark hc, fun _ d hd => ?_⟩
    cases hd
    exact isDigit_of_mem_marks c hc
  · refine ⟨fun hno => ?_, fun hnot => absurd hrun hnot⟩
    obtain ⟨hne, hall⟩ := hrun
    cases lexeme with
    | nil => exact absurd rfl hne
    | cons c more =>
      have hdigit := hall c List.mem_cons_self
      rw [hno c rfl] at hdigit
      cases hdigit

theorem span_append {p : Char → Bool} {front rest : List Char} (hfront : ∀ c ∈ front, p c = true)
    (hrest : ∀ c, rest.head? = some c → p c = false) :
    (front ++ rest).takeWhile p = front ∧ (front ++ rest).dropWhile p = rest := by
  rw [List.takeWhile_append_of_pos hfront, List.dropWhile_append_of_pos hfront]
  cases rest with
  | nil => exact ⟨List.append_nil front, rfl⟩
  | cons c rest =>
    have hc : ¬ p c = true := by rw [hrest c rfl]; exact Bool.false_ne_true
    rw [List.takeWhile_cons_of_neg hc, List.dropWhile_cons_of_neg hc, List.append_nil]
    exact ⟨rfl, rfl⟩

theorem head_dropWhile {p : Char → Bool} {text : List Char} {c : Char}
    (h : (text.dropWhile p).head? = some c) : p c = false := by
  have hnot := List.head?_dropWhile_not p text
  rw [h] at hnot
  exact hnot

theorem of_mem_takeWhile {p : Char → Bool} {text : List Char} {c : Char}
    (h : c ∈ text.takeWhile p) : p c = true :=
  List.all_eq_true.1 List.all_takeWhile c h

theorem byteLength_toList (s : String) : byteLength s.toList = s.utf8ByteSize := by
  have hlist : ∀ l : List Char, (String.ofList l).utf8ByteSize = byteLength l := by
    intro l
    induction l with
    | nil => rfl
    | cons c l ih =>
      rw [String.ofList_cons, String.utf8ByteSize_append, String.utf8ByteSize_singleton, ih]
      rfl
  rw [← hlist, String.ofList_toList]

end Text

open Text

/-! ### The shape that fits -/

namespace Pattern

theorem mark_mem_table {c : Char} (hc : c ∈ marks) : mark c ∈ table := by
  simp only [marks, List.mem_cons, List.not_mem_nil, or_false] at hc
  rcases hc with rfl | rfl | rfl | rfl | rfl | rfl <;> decide

theorem mem_marks_of_mark_mem {c : Char} (h : mark c ∈ table) : c ∈ marks := by
  simpa [table, marks] using h

theorem first?_eq_some {pattern : Pattern} (hp : pattern ∈ table) {text : List Char}
    (hfits : pattern.fits text = true) : first? text = some pattern := by
  cases hf : first? text with
  | none => exact absurd hfits (List.find?_eq_none.1 hf pattern hp)
  | some other =>
    rw [eq_of_fits (List.mem_of_find?_eq_some hf) hp (fits_of_first? hf) hfits]

end Pattern

namespace Reading

variable {file : String} {offset : Nat} {found : List Token}

theorem finish_of_fits {pattern : Pattern} (hp : pattern ∈ Pattern.table) {text : List Char}
    (hfits : pattern.fits text = true) :
    (Reading.mk offset text found).finish file =
      match pattern.token? file offset (pattern.split text).1 with
      | .error error => .error error
      | .ok token? => (Reading.mk (offset + byteLength (pattern.split text).1)
          (pattern.split text).2 (token?.toList ++ found)).finish file := by
  have hne : text.isEmpty = false := by
    cases text with
    | nil => rw [Pattern.fits_nil] at hfits; cases hfits
    | cons => rfl
  rw [finish_eq, hne, next, Pattern.first?_eq_some hp hfits]
  simp only [Bool.false_eq_true, ↓reduceIte]
  cases pattern.token? file offset (pattern.split text).1 <;> rfl

/-! ### Gaps -/

theorem finish_blanks (text : List Char) :
    (Reading.mk offset text found).finish file =
      (Reading.mk (offset + byteLength (text.takeWhile isBlank)) (text.dropWhile isBlank)
        found).finish file := by
  by_cases hfits : Pattern.blanks.fits text = true
  · rw [finish_of_fits (by decide) hfits]
    rfl
  · cases text with
    | nil => rfl
    | cons c text =>
      have hc : ¬ isBlank c = true := by rwa [Pattern.fits_cons] at hfits
      rw [List.takeWhile_cons_of_neg hc, List.dropWhile_cons_of_neg hc]
      rfl

/-- A gap is passed and leaves no token. -/
theorem finish_gap {gap : List Char} (hgap : IsGap gap) (rest : List Char) :
    (Reading.mk offset (gap ++ rest) found).finish file =
      (Reading.mk (offset + byteLength gap) rest found).finish file := by
  rw [finish_blanks, List.takeWhile_append_of_pos hgap, List.dropWhile_append_of_pos hgap,
    byteLength_append, ← Nat.add_assoc, ← finish_blanks]

theorem finish_tail {gap : List Char} (hgap : IsGap gap) :
    (Reading.mk offset gap found).finish file =
      .ok (found.reverse ++ [Token.endAt (Position.at (offset + byteLength gap) file)]) := by
  have hpass : (Reading.mk offset (gap ++ []) found).finish file =
      (Reading.mk (offset + byteLength gap) [] found).finish file := finish_gap hgap []
  rw [List.append_nil] at hpass
  rw [hpass, finish_eq]
  rfl

end Reading

/-! ### Lexemes -/

/-- The token of a lexeme at a byte offset: an integer for a run of digits, a punctuation mark for
a mark. -/
def lexemeToken (file : String) (offset : Nat) (lexeme : List Char) : Token :=
  if lexeme.all Char.isDigit then
    ⟨.integer, String.ofList lexeme, Span.over offset (byteLength lexeme) file,
      some (Int64.ofNat (natOfDigits lexeme))⟩
  else ⟨.punct, String.ofList lexeme, Span.over offset (byteLength lexeme) file, none⟩

theorem lexemeToken_mark {c : Char} (hc : c ∈ marks) (file : String) (offset : Nat) :
    lexemeToken file offset [c] =
      ⟨.punct, String.ofList [c], Span.over offset (byteLength [c]) file, none⟩ := by
  unfold lexemeToken
  rw [List.all_cons, isDigit_of_mem_marks c hc]
  rfl

theorem lexemeToken_run {run : List Char} (hrun : IsRun run) (file : String) (offset : Nat) :
    lexemeToken file offset run = ⟨.integer, String.ofList run,
      Span.over offset (byteLength run) file, some (Int64.ofNat (natOfDigits run))⟩ := by
  unfold lexemeToken
  rw [if_pos (List.all_eq_true.2 hrun.2)]

namespace Reading

variable {file : String} {offset : Nat} {found : List Token}

theorem finish_mark {c : Char} (hc : c ∈ marks) (rest : List Char) :
    (Reading.mk offset (c :: rest) found).finish file =
      (Reading.mk (offset + byteLength [c]) rest (lexemeToken file offset [c] :: found)).finish
        file := by
  have hfits : (Pattern.mark c).fits (c :: rest) = true := by simp [Pattern.starts]
  have hsplit : (Pattern.mark c).split (c :: rest) = ([c], rest) := by simp [Pattern.split]
  rw [finish_of_fits (Pattern.mark_mem_table hc) hfits, hsplit, lexemeToken_mark hc]
  rfl

theorem digits_split {run rest : List Char} (hrun : IsRun run) (hrest : NoDigit rest) :
    Pattern.digits.fits (run ++ rest) = true ∧ Pattern.digits.split (run ++ rest) = (run, rest) := by
  obtain ⟨htake, hdrop⟩ := span_append hrun.2 hrest
  have hsplit : Pattern.digits.split (run ++ rest) = (run, rest) := by
    rw [Pattern.split, htake, hdrop]
  refine ⟨?_, hsplit⟩
  rw [Pattern.fits, hsplit, Bool.not_eq_true', List.isEmpty_eq_false_iff]
  exact hrun.1

theorem finish_run {run rest : List Char} (hrun : IsRun run)
    (hfit : natOfDigits run < 0x8000000000000000) (hrest : NoDigit rest) :
    (Reading.mk offset (run ++ rest) found).finish file =
      (Reading.mk (offset + byteLength run) rest (lexemeToken file offset run :: found)).finish
        file := by
  obtain ⟨hfits, hsplit⟩ := digits_split hrun hrest
  rw [finish_of_fits (by decide) hfits, hsplit, lexemeToken_run hrun, Pattern.token?, if_pos hfit]
  rfl

/-- A run of digits that stands for too large a number ends the reading. -/
theorem finish_bigRun {run rest : List Char} (hrun : IsRun run)
    (hbig : ¬ natOfDigits run < 0x8000000000000000) (hrest : NoDigit rest) :
    (Reading.mk offset (run ++ rest) found).finish file =
      .error ⟨.badNumber (String.ofList run), Position.at offset file⟩ := by
  obtain ⟨hfits, hsplit⟩ := digits_split hrun hrest
  rw [finish_of_fits (by decide) hfits, hsplit, Pattern.token?, if_neg hbig]

/-- **A lexeme becomes its token**, if it is not a run that goes on. -/
theorem finish_lexeme {lexeme rest : List Char} (h : IsLexeme lexeme)
    (hrest : IsRun lexeme → NoDigit rest) :
    (Reading.mk offset (lexeme ++ rest) found).finish file =
      (Reading.mk (offset + byteLength lexeme) rest
        (lexemeToken file offset lexeme :: found)).finish file := by
  rcases h with ⟨c, hc, rfl⟩ | ⟨hrun, hfit⟩
  · exact finish_mark hc rest
  · exact finish_run hrun hfit (hrest hrun)

/-- What is read in one step is a gap, or a lexeme that does not go on. -/
theorem next_cases {reading after : Reading} (h : reading.next file = .ok after) :
    ∃ piece, reading.rest = piece ++ after.rest ∧
      (IsGap piece ∨ IsLexeme piece ∧ (IsRun piece → NoDigit after.rest)) := by
  unfold next at h
  split at h
  · cases h
  · next pattern hp =>
    have hmem := List.mem_of_find?_eq_some hp
    have hfits := Pattern.fits_of_first? hp
    have happ := pattern.split_append reading.rest
    simp only at h
    split at h
    · cases h
    · next token? htoken =>
      cases h
      refine ⟨_, happ.symm, ?_⟩
      cases pattern with
      | digits =>
        have hne : reading.rest.takeWhile Char.isDigit ≠ [] := by
          rw [Pattern.fits, Bool.not_eq_true', List.isEmpty_eq_false_iff] at hfits
          exact hfits
        refine .inr ⟨.inr ⟨⟨hne, fun c => of_mem_takeWhile⟩, ?_⟩, fun _ c => head_dropWhile⟩
        rw [Pattern.token?] at htoken
        split at htoken
        · next hfit => exact hfit
        · cases htoken
      | blanks => exact .inl fun c => of_mem_takeWhile
      | mark d =>
        have hd := Pattern.mem_marks_of_mark_mem hmem
        cases hrest : reading.rest with
        | nil => rw [hrest, Pattern.fits_nil] at hfits; cases hfits
        | cons c rest =>
          have hc : c = d := by simpa [hrest, Pattern.starts] using hfits
          have hsplit : (Pattern.mark d).split (c :: rest) = ([c], rest) := by
            simp [Pattern.split, hc]
          rw [hsplit]
          subst hc
          exact .inr ⟨.inl ⟨c, hd, rfl⟩, fun hrun => absurd hrun (not_isRun_mark hd)⟩

end Reading

end Calculator
