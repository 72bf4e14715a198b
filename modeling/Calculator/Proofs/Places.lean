/-
# Where lexemes and failures stand

A lexeme stands in a text between what comes before it and what comes after it.
It is whole there: a run of digits goes on in neither (`Text.Stands`). Every
token of a source but the last is that of a lexeme that stands in it, at the
bytes before it (`exists_standsIn_of_tokenize`). A reading that fails has read a
segmented text, and what it fails at comes right after it: a character that
starts no lexeme, or a whole run of digits that stands for too large a number
(`exists_blocked_of_tokenize`).

Key definitions: `Text.Apart`, `Text.Stands`, `Text.Blocked`, `Token.StandsIn`.
Key theorems: `Segmented.standsIn`, `exists_blocked`, `exists_standsIn_of_tokenize`,
`exists_blocked_of_tokenize`.
-/
import Calculator.Proofs.Segmentation

namespace Calculator

namespace Text

/-! ### Texts that are apart -/

/-- No run of digits goes on from the first text into the second. -/
def Apart (front rest : List Char) : Prop :=
  ∀ c d, front.getLast? = some c → rest.head? = some d → c.isDigit = true → d.isDigit = false

theorem apart_nil_left (rest : List Char) : Apart [] rest := by
  intro c d hc
  cases hc

theorem apart_of_noDigit {rest : List Char} (h : NoDigit rest) (front : List Char) :
    Apart front rest :=
  fun _ d _ hd _ => h d hd

theorem apart_of_isGap {gap : List Char} (h : IsGap gap) (rest : List Char) : Apart gap rest := by
  intro c d hc _ hdigit
  simp [isDigit_of_isBlank (h c (List.mem_of_getLast? hc))] at hdigit

theorem apart_append_iff {back : List Char} (hne : back ≠ []) (front rest : List Char) :
    Apart (front ++ back) rest ↔ Apart back rest := by
  unfold Apart
  rw [List.getLast?_append_of_ne_nil front hne]

theorem apart_append_right_iff {lexeme : List Char} (h : IsLexeme lexeme) (front rest : List Char) :
    Apart front (lexeme ++ rest) ↔ Apart front lexeme := by
  obtain ⟨c, more, rfl, -⟩ := h.head_not_blank
  rfl

theorem IsLexeme.apart {lexeme rest : List Char} (h : IsLexeme lexeme)
    (hno : IsRun lexeme → NoDigit rest) : Apart lexeme rest := by
  rcases h with ⟨c, hc, rfl⟩ | ⟨hrun, -⟩
  · intro d _ hd _ hdigit
    cases hd
    have hdigit : c.isDigit = true := hdigit
    simp [isDigit_of_mem_marks c hc] at hdigit
  · exact apart_of_noDigit (hno hrun) lexeme

/-! ### Lexemes that stand in a text -/

/-- The text between the two others is a lexeme and goes on in neither. -/
structure Stands (front lexeme rest : List Char) : Prop where
  isLexeme : IsLexeme lexeme
  before : Apart front lexeme
  after : Apart lexeme rest

/-- Nothing can be read at the start of the text, for the reason given. -/
inductive Blocked : List Char → Fault → Prop
  /-- The first character is no digit, no blank and no mark. -/
  | stray {c : Char} {rest : List Char} :
    c.isDigit = false → isBlank c = false → c ∉ marks →
    Blocked (c :: rest) (.unrecognised (String.ofList [c]))
  /-- The text starts with a run whose number is 2 ^ 63 or more. -/
  | bigRun {run rest : List Char} :
    IsRun run → NoDigit rest → ¬ natOfDigits run < 0x8000000000000000 →
    Blocked (run ++ rest) (.badNumber (String.ofList run))

end Text

open Text

/-! ### The tokens of a source -/

/-- The token is that of a lexeme that stands in the text, at the bytes before it. -/
def Token.StandsIn (text : List Char) (file : String) (token : Token) : Prop :=
  ∃ front lexeme rest, text = front ++ (lexeme ++ rest) ∧ Stands front lexeme rest ∧
    token = lexemeToken file (byteLength front) lexeme

/-- The tokens of a segmented text stand in it, and in any text that ends with it and does not
lengthen its first lexeme. -/
theorem Segmented.standsIn (file : String) : ∀ {segments : List Segment} {tail text : List Char},
    Segmented segments tail text → ∀ {front : List Char}, Apart front text →
    ∀ token ∈ segmentTokens file (byteLength front) segments, token.StandsIn (front ++ text) file
  | [], _, _, _, _, _, _, hmem => absurd hmem List.not_mem_nil
  | s :: segments, tail, text, h, front, hapart, token, hmem => by
    obtain ⟨hgap, hlexeme, rest, rfl, hno, hrest⟩ := segmented_cons_iff.1 h
    have hbefore : Apart (front ++ s.gap) s.lexeme := by
      by_cases hempty : s.gap = []
      · rw [hempty, List.nil_append, apart_append_right_iff hlexeme] at hapart
        rwa [hempty, List.append_nil]
      · exact (apart_append_iff hempty front s.lexeme).2 (apart_of_isGap hgap s.lexeme)
    have hafter : Apart s.lexeme rest := hlexeme.apart hno
    rw [segmentTokens] at hmem
    rcases List.mem_cons.1 hmem with rfl | hmem
    · refine ⟨front ++ s.gap, s.lexeme, rest, ?_, ⟨hlexeme, hbefore, hafter⟩, ?_⟩
      · simp only [List.append_assoc]
      · rw [byteLength_append]
    · have hne : s.lexeme ≠ [] := by
        obtain ⟨c, more, hcons, -⟩ := hlexeme.head_not_blank
        rw [hcons]
        exact List.cons_ne_nil c more
      have hnext : Apart (front ++ s.gap ++ s.lexeme) rest :=
        (apart_append_iff hne (front ++ s.gap) rest).2 hafter
      have hlength : byteLength (front ++ s.gap ++ s.lexeme) = byteLength front + byteLength s.text := by
        simp only [Segment.text, byteLength_append, Nat.add_assoc]
      rw [← hlength] at hmem
      have hstands := hrest.standsIn file hnext token hmem
      simpa only [List.append_assoc] using hstands

theorem lexemeToken_isEnd (file : String) (offset : Nat) (lexeme : List Char) :
    (lexemeToken file offset lexeme).isEnd = false := by
  unfold lexemeToken
  split <;> rfl

/-- **The tokens of a source stand in it**, and the end of input comes after them. -/
theorem exists_standsIn_of_tokenize {source file : String} {tokens : List Token}
    (h : tokenize source file = .ok tokens) :
    ∃ lexemes, tokens = lexemes ++ [Token.endAt (Position.at source.utf8ByteSize file)] ∧
      ∀ token ∈ lexemes, token.StandsIn source.toList file := by
  obtain ⟨segments, tail, hsegmented, rfl⟩ := exists_segmented_of_tokenize h
  exact ⟨_, rfl, hsegmented.standsIn file (apart_nil_left source.toList)⟩

/-! ### Where a reading fails -/

theorem Reading.blocked_of_next {file : String} {reading : Reading} {error : Error}
    (hne : reading.rest ≠ []) (h : reading.next file = .error error) :
    Blocked reading.rest error.fault ∧ error.position = Position.at reading.offset file := by
  unfold next at h
  cases hfirst : Pattern.first? reading.rest with
  | none =>
    rw [hfirst] at h
    cases h
    cases hrest : reading.rest with
    | nil => exact absurd hrest hne
    | cons c rest =>
      have hnone : ∀ pattern ∈ Pattern.table, ¬ pattern.starts c = true := by
        intro pattern hp
        have := List.find?_eq_none.1 hfirst pattern hp
        rwa [hrest, Pattern.fits_cons] at this
      refine ⟨.stray ?_ ?_ fun hc => ?_, rfl⟩
      · exact Bool.eq_false_iff.2 (hnone .digits (by decide))
      · exact Bool.eq_false_iff.2 (hnone .blanks (by decide))
      · exact hnone (.mark c) (Pattern.mark_mem_table hc) (decide_eq_true rfl)
  | some pattern =>
    rw [hfirst] at h
    have hfits := Pattern.fits_of_first? hfirst
    have happ := pattern.split_append reading.rest
    cases pattern with
    | digits =>
      rw [Pattern.fits, Bool.not_eq_true', List.isEmpty_eq_false_iff] at hfits
      by_cases hfit : natOfDigits (Pattern.digits.split reading.rest).1 < 0x8000000000000000
      · simp only [Pattern.token?, if_pos hfit] at h
        cases h
      · simp only [Pattern.token?, if_neg hfit] at h
        cases h
        refine ⟨?_, rfl⟩
        conv => lhs; rw [← happ]
        exact .bigRun ⟨hfits, fun c => of_mem_takeWhile⟩ (fun c => head_dropWhile) hfit
    | blanks => cases h
    | mark c => cases h

/-- **A reading fails right after a segmented text**, where nothing can be read, and what blocks it
does not go on from that text. -/
theorem exists_blocked (file : String) (reading : Reading) :
    ∀ error, reading.finish file = .error error →
      ∃ front rest segments tail, reading.rest = front ++ rest ∧ Segmented segments tail front ∧
        Apart front rest ∧ Blocked rest error.fault ∧
        error.position = Position.at (reading.offset + byteLength front) file := by
  fun_induction Reading.finish file reading with
  | case1 => intro _ h; cases h
  | case2 reading hne other hnext =>
    intro error h
    cases h
    have hne : reading.rest ≠ [] := fun hnil => hne (by rw [hnil]; rfl)
    obtain ⟨hblocked, hposition⟩ := Reading.blocked_of_next hne hnext
    have hempty : Segmented [] [] [] :=
      segmented_nil_iff.2 ⟨rfl, fun c hc => absurd hc List.not_mem_nil⟩
    exact ⟨[], reading.rest, [], [], rfl, hempty, apart_nil_left _, hblocked, hposition⟩
  | case3 reading _ after hnext _ ih =>
    intro error h
    obtain ⟨front, rest, segments, tail, hafter, hsegmented, hapart, hblocked, hposition⟩ :=
      ih error h
    obtain ⟨piece, hpiece, hcases⟩ := Reading.next_cases hnext
    obtain ⟨lexeme, hlexeme, hoffset⟩ := Reading.next_whole hnext
    have hsame : lexeme = piece := List.append_cancel_right (hlexeme.trans hpiece)
    subst hsame
    have hwhole : Apart (lexeme ++ front) rest := by
      by_cases hempty : front = []
      · subst hempty
        rw [List.append_nil]
        rcases hcases with hgap | ⟨hlex, hno⟩
        · exact apart_of_isGap hgap rest
        · rw [hafter] at hno
          exact hlex.apart hno
      · exact (apart_append_iff hempty lexeme rest).2 hapart
    have hsplit : ∃ segments' tail', Segmented segments' tail' (lexeme ++ front) := by
      rcases hcases with hgap | ⟨hlex, hno⟩
      · exact hsegmented.gap_append hgap
      · refine ⟨⟨[], lexeme⟩ :: segments, tail, segmented_cons_iff.2
          ⟨fun c hc => absurd hc List.not_mem_nil, hlex, front, rfl, fun hrun c hc => ?_,
            hsegmented⟩⟩
        refine hno hrun c ?_
        rw [hafter, List.head?_append, hc]
        rfl
    obtain ⟨segments', tail', hsegmented'⟩ := hsplit
    refine ⟨lexeme ++ front, rest, segments', tail', ?_, hsegmented', hwhole, hblocked, ?_⟩
    · rw [hpiece, hafter, List.append_assoc]
    · rw [hposition, hoffset, byteLength_append, Nat.add_assoc]

/-- A source that is not cut into tokens is blocked where the error says. -/
theorem exists_blocked_of_tokenize {source file : String} {error : Error}
    (h : tokenize source file = .error error) :
    ∃ front rest segments tail, source.toList = front ++ rest ∧ Segmented segments tail front ∧
      Apart front rest ∧ Blocked rest error.fault ∧
      error.position = Position.at (byteLength front) file := by
  obtain ⟨front, rest, segments, tail, hsource, hsegmented, hapart, hblocked, hposition⟩ :=
    exists_blocked file (Reading.start source) error h
  refine ⟨front, rest, segments, tail, hsource, hsegmented, hapart, hblocked, ?_⟩
  rw [hposition]
  exact congrArg (fun offset => Position.at offset file) (Nat.zero_add _)

end Calculator
