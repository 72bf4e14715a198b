/-
# The line of every place

A text is cut after each newline, so the line of a place is what stands between
the newlines around it: the part of the text before the place that comes after
the last newline there (`lineBefore`), and the part from the place on up to the
first newline (`lineAfter`). The number of the line counts the newlines before
the place. This holds of every place up to the end of the text, and of the
places inside a character as well, since a newline is a single byte.

Key definitions: `lineBefore`, `lineAfter`, `Inside`.
Key theorems: `lines_append_cons`, `lines_append_newline`, `lines_of_not_mem`, `locate?_lines`,
`lineAt?_eq`.
-/
import Calculator.Proofs.Reading
import Calculator.Source.Line
import Mathlib.Data.List.TakeWhile

namespace Calculator

open Text

/-- The part of a text after its last newline. -/
def lineBefore (text : List Char) : List Char := (text.reverse.takeWhile (· ≠ '\n')).reverse

/-- The part of a text up to its first newline, with the newline. -/
def lineAfter : List Char → List Char
  | [] => []
  | c :: text => if c = '\n' then [c] else c :: lineAfter text

/-! ### Before and after a place -/

theorem lineBefore_of_not_mem {text : List Char} (h : '\n' ∉ text) : lineBefore text = text := by
  have hall : ∀ c ∈ text.reverse, decide (c ≠ '\n') = true := by
    intro c hc
    simp only [decide_eq_true_eq]
    rintro rfl
    exact h (List.mem_reverse.1 hc)
  rw [lineBefore, List.takeWhile_eq_self_iff.2 hall, List.reverse_reverse]

theorem lineBefore_append_newline (front text : List Char) :
    lineBefore (front ++ '\n' :: text) = lineBefore text := by
  unfold lineBefore
  rw [List.reverse_append, List.reverse_cons, List.append_assoc, List.takeWhile_append]
  split
  · next hall =>
    rw [List.singleton_append, List.takeWhile_cons_of_neg (by decide), List.append_nil,
      (List.takeWhile_prefix _).eq_of_length hall]
  · rfl

theorem newline_not_mem_lineBefore (text : List Char) : '\n' ∉ lineBefore text := by
  intro h
  have := of_mem_takeWhile (List.mem_reverse.1 h)
  simp at this

theorem lineAfter_of_not_mem : ∀ {text : List Char}, '\n' ∉ text → lineAfter text = text
  | [], _ => rfl
  | c :: text, h => by
    have hc : c ≠ '\n' := fun heq => h (heq ▸ List.mem_cons_self)
    rw [lineAfter, if_neg hc, lineAfter_of_not_mem fun hmem => h (List.mem_cons_of_mem c hmem)]

theorem lineAfter_append_newline : ∀ {front : List Char}, '\n' ∉ front → ∀ text : List Char,
    lineAfter (front ++ '\n' :: text) = front ++ ['\n']
  | [], _, _ => rfl
  | c :: front, h, text => by
    have hc : c ≠ '\n' := fun heq => h (heq ▸ List.mem_cons_self)
    have hfront : '\n' ∉ front := fun hmem => h (List.mem_cons_of_mem c hmem)
    rw [List.cons_append, lineAfter, if_neg hc, lineAfter_append_newline hfront, List.cons_append]

theorem newline_not_mem_dropLast_lineAfter {front : List Char} (hfront : '\n' ∉ front)
    (rest : List Char) : '\n' ∉ (front ++ lineAfter rest).dropLast := by
  by_cases hnewline : '\n' ∈ rest
  · obtain ⟨between, after, rfl, hbetween⟩ := List.eq_append_cons_of_mem hnewline
    rw [lineAfter_append_newline hbetween, ← List.append_assoc, List.dropLast_concat,
      List.mem_append, not_or]
    exact ⟨hfront, hbetween⟩
  · rw [lineAfter_of_not_mem hnewline]
    intro hmem
    rcases List.mem_append.1 ((List.dropLast_sublist _).subset hmem) with hmem | hmem
    · exact hfront hmem
    · exact hnewline hmem

/-! ### The lines of a text -/

/-- A text is cut after each newline. -/
theorem lines_append_cons : ∀ (front rest : List Char),
    lines (front ++ '\n' :: rest) = lines (front ++ ['\n']) ++ lines rest
  | [], rest => by
    rw [List.nil_append, List.nil_append, lines, if_pos rfl]
    rfl
  | c :: front, rest => by
    have ih := lines_append_cons front rest
    rw [List.cons_append, List.cons_append, lines, lines, ih]
    by_cases hc : c = '\n'
    · rw [if_pos hc, if_pos hc, List.cons_append]
    · rw [if_neg hc, if_neg hc]
      cases hlines : lines (front ++ ['\n']) with
      | nil =>
        have hflat := lines_flatten (front ++ ['\n'])
        rw [hlines] at hflat
        simp at hflat
      | cons line more => rfl

/-- The first line of a text ends with its first newline. -/
theorem lines_append_newline : ∀ {front : List Char}, '\n' ∉ front → ∀ text : List Char,
    lines (front ++ '\n' :: text) = (front ++ ['\n']) :: lines text
  | [], _, text => by rw [List.nil_append, lines, if_pos rfl, List.nil_append]
  | c :: front, h, text => by
    have hc : c ≠ '\n' := fun heq => h (heq ▸ List.mem_cons_self)
    have hfront : '\n' ∉ front := fun hmem => h (List.mem_cons_of_mem c hmem)
    rw [List.cons_append, lines, if_neg hc, lines_append_newline hfront]
    rfl

/-- A text without a newline is one line, unless it is empty. -/
theorem lines_of_not_mem : ∀ {text : List Char}, text ≠ [] → '\n' ∉ text → lines text = [text]
  | [], hne, _ => absurd rfl hne
  | [c], _, h => by
    have hc : c ≠ '\n' := fun heq => h (heq ▸ List.mem_cons_self)
    rw [lines, if_neg hc]
    rfl
  | c :: d :: text, _, h => by
    have hc : c ≠ '\n' := fun heq => h (heq ▸ List.mem_cons_self)
    have hrest : '\n' ∉ d :: text := fun hmem => h (List.mem_cons_of_mem c hmem)
    rw [lines, if_neg hc, lines_of_not_mem (List.cons_ne_nil d text) hrest]

theorem endsLine_of_not_mem {text : List Char} (h : '\n' ∉ text) : endsLine text = false := by
  rw [endsLine, Bool.eq_false_iff]
  intro hlast
  exact h (List.mem_of_getLast? (by simpa using hlast))

/-! ### The line of a place -/

/-- The offset `extra` bytes after a place lies before the next one: it is the place itself, or lies
inside the character there. -/
def Inside (extra : Nat) (rest : List Char) : Prop :=
  extra = 0 ∨ ∃ c more, rest = c :: more ∧ extra < c.utf8Size

theorem locate?_first {front : List Char} (hfront : '\n' ∉ front) {rest : List Char} {extra : Nat}
    (hin : Inside extra rest) (number : Nat) :
    locate? (lines (front ++ rest)) number (byteLength front + extra) =
      some ⟨number, front ++ lineAfter rest, byteLength front + extra⟩ := by
  by_cases hnewline : '\n' ∈ rest
  · obtain ⟨between, after, rfl, hbetween⟩ := List.eq_append_cons_of_mem hnewline
    have hline : '\n' ∉ front ++ between := by simp [hfront, hbetween]
    have hlt : byteLength front + extra < byteLength (front ++ between ++ ['\n']) := by
      have hsize := Char.utf8Size_pos '\n'
      rcases hin with rfl | ⟨c, more, heq, hextra⟩
      · simp only [byteLength_append, byteLength_cons, byteLength_nil]
        omega
      · cases between with
        | nil =>
          cases heq
          simp only [byteLength_append, byteLength_cons, byteLength_nil]
          omega
        | cons d between =>
          cases heq
          simp only [byteLength_append, byteLength_cons, byteLength_nil]
          omega
    rw [← List.append_assoc, lines_append_newline hline, locate?, if_pos (.inl hlt),
      lineAfter_append_newline hbetween, List.append_assoc]
  · rw [lineAfter_of_not_mem hnewline]
    have hline : '\n' ∉ front ++ rest := by simp [hfront, hnewline]
    by_cases hempty : front ++ rest = []
    · obtain ⟨rfl, rfl⟩ := List.append_eq_nil_iff.1 hempty
      rcases hin with rfl | ⟨c, more, heq, -⟩
      · rfl
      · cases heq
    · have hle : byteLength front + extra ≤ byteLength (front ++ rest) := by
        rw [byteLength_append]
        rcases hin with rfl | ⟨c, more, rfl, hextra⟩
        · omega
        · rw [byteLength_cons]
          omega
      have hopen : endsLine (front ++ rest) = false := endsLine_of_not_mem hline
      rw [lines_of_not_mem hempty hline, locate?, hopen, if_pos]
      simpa using Nat.lt_or_eq_of_le hle

/-- **The line of a place.** It is what stands between the newlines around the place, and its number
counts the newlines before it. -/
theorem locate?_lines {rest : List Char} {extra : Nat} (hin : Inside extra rest) :
    ∀ (front : List Char) (number : Nat),
    locate? (lines (front ++ rest)) number (byteLength front + extra) =
      some ⟨number + front.count '\n', lineBefore front ++ lineAfter rest,
        byteLength (lineBefore front) + extra⟩ := by
  intro front
  by_cases hnewline : '\n' ∈ front
  · -- the first line ends before the place, which lies in one of the lines after it
    obtain ⟨first, after, hfront, hfirst⟩ := List.eq_append_cons_of_mem hnewline
    have hless : after.length < front.length := by
      rw [hfront]
      simp only [List.length_append, List.length_cons]
      omega
    intro number
    have hline := locate?_lines hin after (number + 1)
    subst hfront
    have hends : endsLine (first ++ ['\n']) = true := by simp [endsLine]
    have hlen : byteLength (first ++ '\n' :: after) + extra =
        byteLength (first ++ ['\n']) + (byteLength after + extra) := by
      simp only [byteLength_append, byteLength_cons, byteLength_nil]
      omega
    have hpast : ¬ (byteLength (first ++ ['\n']) + (byteLength after + extra) <
          byteLength (first ++ ['\n']) ∨
        (byteLength (first ++ ['\n']) + (byteLength after + extra) =
          byteLength (first ++ ['\n']) ∧ (!endsLine (first ++ ['\n'])) = true)) := by
      rw [hends]
      simp
    have hcount : (first ++ '\n' :: after).count '\n' = after.count '\n' + 1 := by
      rw [List.count_append, List.count_cons_self, List.count_eq_zero.2 hfirst, Nat.zero_add]
    rw [List.append_assoc, List.cons_append, lines_append_newline hfirst, locate?, hlen,
      if_neg hpast, Nat.add_sub_cancel_left, hline, hcount, lineBefore_append_newline]
    simp only [Nat.add_assoc, Nat.add_comm 1]
  · intro number
    rw [locate?_first hnewline hin, lineBefore_of_not_mem hnewline, List.count_eq_zero.2 hnewline,
      Nat.add_zero]
termination_by front => front.length

/-- The line of a place in a source. -/
theorem lineAt?_eq {source : String} {front rest : List Char} (h : source.toList = front ++ rest) :
    lineAt? source (byteLength front) = some ⟨1 + front.count '\n',
      lineBefore front ++ lineAfter rest, byteLength (lineBefore front)⟩ := by
  rw [lineAt?, h]
  exact locate?_lines (.inl rfl) front 1

end Calculator
