/-
# The shapes of lexemes

A source is made of digit runs, blank runs and the six marks. Each shape
describes the starts of a text that have it, and the longest of them is the
lexeme. The shapes are tried in the order of a table; their first characters
are different, so at most one of them describes a start of any text.

Key definitions: `Pattern`, `Pattern.table`, `Pattern.split`, `Pattern.fits`, `Pattern.first?`.
Key theorems: `Pattern.split_append`, `Pattern.length_lt_of_fits`, `Pattern.eq_of_fits`.
-/
import Calculator.Text.Blank

namespace Calculator

open Text

/-- A shape of lexemes. -/
inductive Pattern
  /-- One or more decimal digits. -/
  | digits
  /-- One or more blanks. -/
  | blanks
  /-- The character itself. -/
  | mark (c : Char)
deriving DecidableEq

namespace Pattern

/-- The shapes, in the order they are tried. -/
def table : List Pattern :=
  [digits, blanks, mark '(', mark ')', mark '+', mark '-', mark '*', mark '/']

/-- The longest start of a text that has the shape, and the rest. -/
def split : Pattern → List Char → List Char × List Char
  | digits, text => (text.takeWhile Char.isDigit, text.dropWhile Char.isDigit)
  | blanks, text => (text.takeWhile isBlank, text.dropWhile isBlank)
  | mark _, [] => ([], [])
  | mark c, d :: text => if d = c then ([d], text) else ([], d :: text)

/-- Whether a nonempty start of the text has the shape. -/
def fits (pattern : Pattern) (text : List Char) : Bool := !(pattern.split text).1.isEmpty

/-- The first shape of the table that a start of the text has. -/
def first? (text : List Char) : Option Pattern := table.find? (·.fits text)

/-- The lexeme and the rest make up the text. -/
theorem split_append (pattern : Pattern) (text : List Char) :
    (pattern.split text).1 ++ (pattern.split text).2 = text := by
  cases pattern with
  | digits => simp [split, List.takeWhile_append_dropWhile]
  | blanks => simp [split, List.takeWhile_append_dropWhile]
  | mark c =>
    cases text with
    | nil => rfl
    | cons d text => rw [split]; split <;> rfl

/-- A shape that fits takes at least one character off the text. -/
theorem length_lt_of_fits {pattern : Pattern} {text : List Char} (h : pattern.fits text = true) :
    (pattern.split text).2.length < text.length := by
  have happ := congrArg List.length (pattern.split_append text)
  have hne : 0 < (pattern.split text).1.length := by
    rw [fits] at h
    cases hl : (pattern.split text).1 with
    | nil => rw [hl] at h; simp at h
    | cons c cs => simp
  rw [List.length_append] at happ
  omega

/-- Whether a text that starts with `c` starts with a lexeme of the shape. -/
def starts : Pattern → Char → Bool
  | digits, c => c.isDigit
  | blanks, c => isBlank c
  | mark d, c => c = d

@[simp] theorem fits_nil (pattern : Pattern) : pattern.fits [] = false := by
  cases pattern <;> rfl

@[simp] theorem fits_cons (pattern : Pattern) (c : Char) (text : List Char) :
    pattern.fits (c :: text) = pattern.starts c := by
  cases pattern with
  | digits => by_cases h : c.isDigit <;> simp [fits, split, starts, h]
  | blanks => by_cases h : isBlank c <;> simp [fits, split, starts, h]
  | mark d => by_cases h : c = d <;> simp [fits, split, starts, h]

theorem eq_of_starts {p q : Pattern} (hp : p ∈ table) (hq : q ∈ table) {c : Char}
    (h : p.starts c = true) (h' : q.starts c = true) : p = q := by
  have hdigit : ∀ {d : Char}, d.isDigit = true → isBlank d = true → False := fun h h' => by
    rw [isBlank_of_isDigit h] at h'; exact absurd h' (by decide)
  simp only [table, List.mem_cons, List.not_mem_nil, or_false] at hp hq
  rcases hp with rfl | rfl | rfl | rfl | rfl | rfl | rfl | rfl <;>
    rcases hq with rfl | rfl | rfl | rfl | rfl | rfl | rfl | rfl <;>
    first
    | rfl
    | exact (hdigit h h').elim
    | exact (hdigit h' h).elim
    | (simp only [starts, decide_eq_true_eq] at h h'; subst h; revert h'; decide)
    | (simp only [starts, decide_eq_true_eq] at h h'; subst h'; revert h; decide)

/-- At most one shape of the table fits a text. -/
theorem eq_of_fits {p q : Pattern} (hp : p ∈ table) (hq : q ∈ table) {text : List Char}
    (h : p.fits text = true) (h' : q.fits text = true) : p = q := by
  cases text with
  | nil => simp at h
  | cons c text => exact eq_of_starts hp hq (by simpa using h) (by simpa using h')

theorem fits_of_first? {text : List Char} {pattern : Pattern} (h : first? text = some pattern) :
    pattern.fits text = true := by
  rw [first?] at h
  simpa using List.find?_some h

end Pattern

end Calculator
