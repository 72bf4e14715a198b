/-
# What the caret stands under

A report shows the line of the error without the blanks around it, and below it
a caret. The caret stands as many columns in as characters come before the
place, less the spaces at the start of the line. But the line is shown without
all the blanks at its start: those from the first one on that is no space are
removed and not counted, and the caret stands right of the offending character
by just as many columns (`report_underCaret`). So it stands under the character
if only spaces come before the text of the line, and does not after a tab.

Key definitions: `Line.hidden`, `charAt?`, `underCaret?`.
Key theorems: `Line.column_of_text`, `Line.dashes_of_text`, `trim_append_cons`,
`underCaret?_append`, `report_underCaret`.
-/
import Calculator.Proofs.Blame
import Calculator.Proofs.Drawing

namespace Calculator

open Text

/-- The number of blanks at the start of the line after the spaces at its start. -/
def Line.hidden (line : Line) : Nat :=
  ((line.text.dropWhile (· = ' ')).takeWhile isBlank).length

/-- The character of a source that starts at the byte offset. -/
def charAt? (source : String) (offset : Nat) : Option Char :=
  (cut? offset source.toList).bind fun parts => parts.2.head?

/-- The character of the line above the last one that stands `shift` columns left of the caret in
the last one. -/
def underCaret? (shift : Nat) (report : String) : Option Char :=
  match (lines report.toList).reverse with
  | pointer :: shown :: _ =>
    if shift ≤ pointer.idxOf '^' then shown[pointer.idxOf '^' - shift]? else none
  | _ => none

/-! ### A line around a character that is no blank -/

namespace Text

variable {p : Char → Bool} {c : Char} (before after : List Char)

theorem takeWhile_append_cons (hc : p c = false) :
    (before ++ c :: after).takeWhile p = before.takeWhile p := by
  have hc : ¬ p c = true := by rw [hc]; exact Bool.false_ne_true
  rw [List.takeWhile_append, List.takeWhile_cons_of_neg hc, List.append_nil]
  split
  · next hall => exact ((List.takeWhile_prefix p).eq_of_length hall).symm
  · rfl

theorem dropWhile_append_cons (hc : p c = false) :
    (before ++ c :: after).dropWhile p = before.dropWhile p ++ c :: after := by
  have hc : ¬ p c = true := by rw [hc]; exact Bool.false_ne_true
  rw [List.dropWhile_append, List.dropWhile_cons_of_neg hc]
  split
  · next hempty =>
    rw [List.isEmpty_iff.1 hempty]
    rfl
  · rfl

/-- The blanks at its two ends are removed from a line on the two sides of the character. -/
theorem trim_append_cons (hc : isBlank c = false) :
    trim (before ++ c :: after) =
      before.dropWhile isBlank ++ c :: (after.reverse.dropWhile isBlank).reverse := by
  rw [trim, dropWhile_append_cons before after hc, List.reverse_append, List.reverse_cons,
    List.append_assoc, List.singleton_append, dropWhile_append_cons _ _ hc]
  simp only [List.reverse_append, List.reverse_cons, List.reverse_reverse, List.append_assoc,
    List.singleton_append]

end Text

namespace Line

variable {line : Line} {before after : List Char} {c : Char}

/-- The place of a character in a line comes after the characters before it. -/
theorem column_of_text (htext : line.text = before ++ c :: after)
    (hoffset : line.offset = byteLength before) : line.column = before.length := by
  have hcut : cut? line.offset line.text = some (before, c :: after) :=
    cut?_eq_some_iff.2 ⟨htext.symm, hoffset.symm⟩
  rw [column, hcut]

/-- The dashes reach over what is shown before the character and the blanks that are not counted. -/
theorem dashes_of_text (htext : line.text = before ++ c :: after)
    (hoffset : line.offset = byteLength before) (hc : isBlank c = false) :
    line.dashes = line.hidden + (before.dropWhile isBlank).length := by
  have hspace : decide (c = ' ') = false := by
    rw [decide_eq_false_iff_not]
    rintro rfl
    exact absurd hc (by decide)
  have hblanks : ∀ d ∈ before.takeWhile (· = ' '), isBlank d = true := by
    intro d hd
    have hd : d = ' ' := by simpa using of_mem_takeWhile hd
    rw [hd]
    decide
  have hspaces : line.spaces = (before.takeWhile (· = ' ')).length := by
    rw [spaces, htext, takeWhile_append_cons before after hspace]
  have hhidden : line.hidden = ((before.dropWhile (· = ' ')).takeWhile isBlank).length := by
    rw [hidden, htext, dropWhile_append_cons before after hspace, takeWhile_append_cons _ _ hc]
  -- the line before the character: its spaces, the blanks after them, and what is shown
  have hshown : before.dropWhile isBlank = (before.dropWhile (· = ' ')).dropWhile isBlank := by
    conv => lhs; rw [← List.takeWhile_append_dropWhile (p := (· = ' ')) (l := before)]
    exact List.dropWhile_append_of_pos hblanks
  have hbefore := congrArg List.length
    (List.takeWhile_append_dropWhile (p := (fun d => decide (d = ' '))) (l := before))
  have hrest := congrArg List.length
    (List.takeWhile_append_dropWhile (p := isBlank) (l := before.dropWhile (· = ' ')))
  rw [List.length_append] at hbefore hrest
  rw [dashes, column_of_text htext hoffset, hspaces, hhidden, hshown]
  omega

end Line

/-! ### The last two lines of a text -/

/-- What stands above the caret, if the text ends with a line and a pointer below it. -/
theorem underCaret?_append {report : String} {head shown pointer : List Char} (shift : Nat)
    (hreport : report.toList = head ++ '\n' :: (shown ++ '\n' :: (pointer ++ '^' :: ['\n'])))
    (hshown : '\n' ∉ shown) (hpointer : '\n' ∉ pointer) (hcaret : '^' ∉ pointer)
    (hshift : shift ≤ pointer.length) (hlt : pointer.length - shift < shown.length) :
    underCaret? shift report = shown[pointer.length - shift]? := by
  have hnewline : '\n' ∉ pointer ++ ['^'] := by simp [hpointer]
  have hlast : pointer ++ '^' :: ['\n'] = (pointer ++ ['^']) ++ '\n' :: [] := by simp
  have hlines : lines report.toList =
      lines (head ++ ['\n']) ++ [shown ++ ['\n'], pointer ++ '^' :: ['\n']] := by
    rw [hreport, lines_append_cons, lines_append_newline hshown, hlast,
      lines_append_newline hnewline]
    rfl
  have hcolumn : (pointer ++ '^' :: ['\n']).idxOf '^' = pointer.length := by
    rw [List.idxOf_append_of_notMem hcaret, List.idxOf_cons_self, Nat.add_zero]
  rw [underCaret?, hlines, List.reverse_append]
  show (if shift ≤ (pointer ++ '^' :: ['\n']).idxOf '^' then
    (shown ++ ['\n'])[(pointer ++ '^' :: ['\n']).idxOf '^' - shift]? else none) = _
  rw [hcolumn, if_pos hshift, List.getElem?_append_left hlt]

/-! ### The report of an error -/

namespace Line

theorem length_pointer (line : Line) :
    line.pointer.length = line.gutter.length + line.dashes := by
  simp only [pointer, margin, gutter, List.length_append, List.length_cons, List.length_replicate,
    List.length_nil, String.length_toList]
  omega

/-- The caret of a line is as many columns right of the character it is about, if that is no blank,
as blanks are hidden. -/
theorem underCaret?_excerpt {line : Line} {before after : List Char} {c : Char}
    (htext : line.text = before ++ c :: lineAfter after) (hoffset : line.offset = byteLength before)
    (hbefore : '\n' ∉ before) (hc : isBlank c = false) (headline : String) :
    underCaret? line.hidden (headline ++ line.excerpt) = some c := by
  have hopen : '\n' ∉ before ++ [c] := by
    rw [List.mem_append, not_or]
    refine ⟨hbefore, fun hmem => ?_⟩
    rw [← List.mem_singleton.1 hmem] at hc
    exact absurd hc (by decide)
  have hline : '\n' ∉ line.text.dropLast := by
    rw [htext, ← List.singleton_append, ← List.append_assoc]
    exact newline_not_mem_dropLast_lineAfter hopen after
  have hshown := newline_not_mem_shown hline
  have hnewline := line.newline_not_mem_pointer
  have hcaret : '^' ∉ line.pointer := fun hmem => absurd (mem_pointer hmem) (by decide)
  have hlength := line.length_pointer
  have hdashes := dashes_of_text htext hoffset hc
  have hcolumn : line.pointer.length - line.hidden =
      line.gutter.length + (before.dropWhile isBlank).length := by
    omega
  have hat : (line.gutter ++ trim line.text)[line.pointer.length - line.hidden]? = some c := by
    rw [hcolumn, htext, trim_append_cons before (lineAfter after) hc,
      List.getElem?_append_right (Nat.le_add_right _ _), Nat.add_sub_cancel_left,
      List.getElem?_append_right (Nat.le_refl _), Nat.sub_self]
    rfl
  obtain ⟨hlt, -⟩ := List.getElem?_eq_some_iff.1 hat
  rw [underCaret?_append line.hidden (line.toList_excerpt headline) hshown hnewline hcaret (by omega)
    hlt, hat]

end Line

/-- **The caret stands right of the offending character by the blanks that are not counted.** In a
source of fewer than 2 ^ 32 bytes, let an error be about a place before the end. The report of the
error shows the line of the place, and above the caret, as many columns to the left as blanks follow
the spaces at the start of the line, stands the character of the source at the place. -/
theorem report_underCaret {source file : String} {limit : Nat} {error : Error}
    (hsize : source.utf8ByteSize < 0x100000000) (h : outcome source file limit = .error error)
    (hlt : error.position.offset.toNat < source.utf8ByteSize) :
    ∃ line c, lineAt? source error.position.offset.toNat = some line ∧
      charAt? source error.position.offset.toNat = some c ∧
      underCaret? line.hidden (error.report source) = some c := by
  obtain ⟨-, front, rest, hsource, hoffset, hpoints⟩ := (outcome_pointsInto h).exists_place hsize
  cases rest with
  | nil =>
    rw [hoffset, ← byteLength_toList, hsource, List.append_nil] at hlt
    exact absurd hlt (Nat.lt_irrefl _)
  | cons c more =>
    have hblank : isBlank c = false := hpoints.isBlank_head
    have hc : c ≠ '\n' := by
      rintro rfl
      exact absurd hblank (by decide)
    have hline := lineAt?_eq hsource
    rw [lineAfter, if_neg hc] at hline
    have hcut : cut? (byteLength front) source.toList = some (front, c :: more) :=
      cut?_eq_some_iff.2 ⟨hsource.symm, rfl⟩
    rw [Error.report, charAt?, hoffset, hline, hcut]
    refine ⟨_, c, rfl, rfl, ?_⟩
    exact Line.underCaret?_excerpt rfl rfl (newline_not_mem_lineBefore front) hblank error.headline

/-- The tab before `1` is removed and not counted, so the caret stands one column right of the `*`
that is no operand. -/
theorem report_underCaret_tab :
    outcome "\t1 + * 2" "input.txt" 256 =
      .error ⟨.expectedNumber "*", Position.at 5 "input.txt"⟩ ∧
    underCaret? 1 (Error.report ⟨.expectedNumber "*", Position.at 5 "input.txt"⟩ "\t1 + * 2") =
      some '*' := by
  have houtcome : outcome "\t1 + * 2" "input.txt" 256 =
      .error ⟨.expectedNumber "*", Position.at 5 "input.txt"⟩ := by decide +kernel
  obtain ⟨line, c, hline, hc, hunder⟩ := report_underCaret (by decide) houtcome (by decide)
  have hline' : lineAt? "\t1 + * 2" 5 = some ⟨1, "\t1 + * 2".toList, 5⟩ := by decide +kernel
  have hc' : charAt? "\t1 + * 2" 5 = some '*' := by decide +kernel
  obtain rfl := Option.some.inj (hline'.symm.trans hline)
  obtain rfl := Option.some.inj (hc'.symm.trans hc)
  exact ⟨houtcome, hunder⟩

/-- So the character in the column of the caret is not always the one the error is about. -/
theorem not_underCaret_after_tab :
    ¬ ∀ (source file : String) (limit : Nat) (error : Error),
      source.utf8ByteSize < 0x100000000 → outcome source file limit = .error error →
      error.position.offset.toNat < source.utf8ByteSize →
      underCaret? 0 (error.report source) = charAt? source error.position.offset.toNat := by
  intro h
  have hcaret := h "\t1 + * 2" "input.txt" 256 ⟨.expectedNumber "*", Position.at 5 "input.txt"⟩
    (by decide) (by decide +kernel) (by decide)
  revert hcaret
  decide +kernel

end Calculator
