/-
# The loop over a source always gets on

A reading keeps what is left of its source. Here the source is cut by a loop that keeps
only its place: it takes what is left anew whenever it looks, tests the shapes of the
table on it one by one, and lets the first that passes search it once more and move on.
Nothing in it makes a turn move: a search that finds nothing would leave the place as it
is, and a place inside a character would have nothing to look at.

Neither happens. In every turn the loop moves as a reading does, to the end of a lexeme
(`Reading.turn?_eq`), and it ends where the reading does after at most as many turns as
the source has bytes (`Reading.exists_ends`).

Key definitions: `Tokenizer`, `Tokenizer.turn?`, `Tokenizer.Comes`, `Tokenizer.Ends`,
`Tokenizer.GetsOn`.
Key theorems: `Reading.turn?_eq`, `Tokenizer.Comes.exists_reading`, `Reading.exists_ends`,
`Reading.getsOn`, `tokenizer_gets_on`.
-/
import Calculator.Proofs.Searches
import Calculator.Token.Lexer

namespace Calculator

open Text

/-! ### The loop -/

/-- The state of a loop that cuts a source into tokens. It knows its place and nothing of what is
left of the source. -/
structure Tokenizer where
  /-- The byte offset of the place. -/
  offset : Nat
  /-- The tokens found, the latest first. -/
  found : List Token
deriving DecidableEq

namespace Tokenizer

variable (source file : String)

/-- The start of a source. -/
def start : Tokenizer := ⟨0, []⟩

/-- Whether the place is the end of the source or past it. -/
def isAtEnd (t : Tokenizer) : Bool := source.utf8ByteSize ≤ t.offset

/-- The source from the place on, if a character or the end of the source is there. -/
def remainder? (t : Tokenizer) : Option (List Char) := (cut? t.offset source.toList).map (·.2)

/-- The next character, `none` at the end of the source, if one of the two is there. -/
def next? (t : Tokenizer) : Option (Option Char) := (t.remainder? source).map List.head?

/-- Moves forward by `n` bytes. -/
def advance (n : Nat) (t : Tokenizer) : Tokenizer := { t with offset := t.offset + n }

/-- Adds a token to those found. -/
def push (token : Token) (t : Tokenizer) : Tokenizer := { t with found := token :: t.found }

/-- Makes an integer of the digits that are searched at the place. If there are none, it does
nothing. -/
def takeDigits? (t : Tokenizer) : Option (Except Error Tokenizer) :=
  (t.remainder? source).map fun text =>
    match Pattern.digits.search? text with
    | none => .ok t
    | some run =>
      if natOfDigits run < 0x8000000000000000 then
        .ok ((t.push ⟨.integer, String.ofList run, Span.over t.offset (byteLength run) file,
          some (Int64.ofNat (natOfDigits run))⟩).advance (byteLength run))
      else .error ⟨.badNumber (String.ofList run), Position.at t.offset file⟩

/-- Passes the blanks that are searched at the place. If there are none, it does nothing. -/
def takeBlanks? (t : Tokenizer) : Option (Except Error Tokenizer) :=
  (t.remainder? source).map fun text =>
    match Pattern.blanks.search? text with
    | none => .ok t
    | some gap => .ok (t.advance (byteLength gap))

/-- Makes a punctuation mark of `c`, without a look at the source. -/
def takeMark (c : Char) (t : Tokenizer) : Tokenizer :=
  (t.push ⟨.punct, String.ofList [c], Span.over t.offset c.utf8Size file, none⟩).advance c.utf8Size

/-- What is done at the place for a shape. -/
def take? (t : Tokenizer) : Pattern → Option (Except Error Tokenizer)
  | .digits => t.takeDigits? source file
  | .blanks => t.takeBlanks? source
  | .mark c => some (.ok (t.takeMark file c))

/-- One turn of the loop: the first shape that passes the test has its lexeme taken, and it is an
error if there is none. There is no result if the place is inside a character or past the end. -/
def turn? (t : Tokenizer) : Option (Except Error Tokenizer) :=
  (t.remainder? source).bind fun text =>
    match Pattern.table.find? (·.test text) with
    | some pattern => t.take? source file pattern
    | none => (t.next? source).map fun c? =>
      .error ⟨.unrecognised (String.ofList c?.toList), Position.at t.offset file⟩

/-- After so many turns from the start of the source, the loop is in the state. -/
inductive Comes : Nat → Tokenizer → Prop
  /-- At the start of the source no turn has been made. -/
  | start : Comes 0 start
  /-- A turn is made unless the place is the end of the source. -/
  | turn {n : Nat} {t u : Tokenizer} : Comes n t → t.isAtEnd source = false →
    t.turn? source file = some (.ok u) → Comes (n + 1) u

/-- From the state the loop ends after so many turns, with the result. -/
inductive Ends : Tokenizer → Nat → Except Error (List Token) → Prop
  /-- At the end of the source the tokens are ended. -/
  | atEnd {t : Tokenizer} : t.isAtEnd source = true →
    Ends t 0 (.ok (t.found.reverse ++ [Token.endAt (Position.at t.offset file)]))
  /-- A turn with an error is the last. -/
  | fails {t : Tokenizer} {error : Error} : t.isAtEnd source = false →
    t.turn? source file = some (.error error) → Ends t 1 (.error error)
  /-- Any other turn is followed by the next. -/
  | turn {t u : Tokenizer} {n : Nat} {result : Except Error (List Token)} :
    t.isAtEnd source = false → t.turn? source file = some (.ok u) → Ends u n result →
    Ends t (n + 1) result

end Tokenizer

/-! ### A turn moves as a reading does -/

/-- The state of a loop that has come as far as the reading. -/
def Reading.tokenizer (reading : Reading) : Tokenizer := ⟨reading.offset, reading.found⟩

/-- What is left to the reading is what is left of the source at its offset. -/
def Reading.IsOf (source : String) (reading : Reading) : Prop :=
  ∃ front, front ++ reading.rest = source.toList ∧ byteLength front = reading.offset

namespace Reading

variable {source file : String} {reading after : Reading}

theorem isOf_start (source : String) : (start source).IsOf source := ⟨[], rfl, rfl⟩

namespace IsOf

theorem next (h : reading.IsOf source) (hnext : reading.next file = .ok after) :
    after.IsOf source := by
  obtain ⟨front, hfront, hbytes⟩ := h
  obtain ⟨lexeme, hlexeme, hoffset⟩ := next_whole hnext
  refine ⟨front ++ lexeme, ?_, ?_⟩
  · rw [List.append_assoc, hlexeme, hfront]
  · rw [byteLength_append, hbytes, hoffset]

theorem size_eq (h : reading.IsOf source) :
    source.utf8ByteSize = reading.offset + byteLength reading.rest := by
  obtain ⟨front, hfront, hbytes⟩ := h
  rw [← byteLength_toList, ← hfront, byteLength_append, hbytes]

theorem remainder?_eq (h : reading.IsOf source) :
    reading.tokenizer.remainder? source = some reading.rest := by
  obtain ⟨front, hfront⟩ := h
  have hcut : cut? reading.offset source.toList = some (front, reading.rest) :=
    cut?_eq_some_iff.2 hfront
  show (cut? reading.offset source.toList).map (·.2) = _
  rw [hcut]
  rfl

theorem isAtEnd_eq (h : reading.IsOf source) :
    reading.tokenizer.isAtEnd source = reading.rest.isEmpty := by
  rw [Bool.eq_iff_iff, List.isEmpty_iff]
  show decide (source.utf8ByteSize ≤ reading.offset) = true ↔ _
  rw [decide_eq_true_eq, h.size_eq]
  cases reading.rest with
  | nil => simp
  | cons c rest =>
    have hpos := c.utf8Size_pos
    simp only [byteLength_cons, reduceCtorEq, iff_false]
    omega

theorem goesOn (h : reading.IsOf source) (hrest : ¬ reading.rest.isEmpty = true) :
    reading.tokenizer.isAtEnd source = false := by
  rw [h.isAtEnd_eq]
  exact Bool.eq_false_iff.2 hrest

end IsOf

/-- **A turn of the loop does what a reading does next.** -/
theorem turn?_eq (h : reading.IsOf source) :
    reading.tokenizer.turn? source file = some ((reading.next file).map Reading.tokenizer) := by
  have htest : (fun p : Pattern => p.test reading.rest) = fun p => p.fits reading.rest :=
    funext fun p => p.test_eq_fits reading.rest
  have hfirst : Pattern.table.find? (·.test reading.rest) = Pattern.first? reading.rest := by
    rw [htest]
    rfl
  rw [Tokenizer.turn?, h.remainder?_eq, Option.bind_some, hfirst, Reading.next]
  cases hpattern : Pattern.first? reading.rest with
  | none =>
    rw [Tokenizer.next?, h.remainder?_eq]
    cases reading.rest <;> rfl
  | some pattern =>
    have hfits := Pattern.fits_of_first? hpattern
    cases pattern with
    | digits =>
      simp only [Tokenizer.take?, Tokenizer.takeDigits?, h.remainder?_eq, Option.map_some,
        Pattern.search?_eq, hfits, ↓reduceIte, Pattern.token?]
      split <;> rfl
    | blanks =>
      simp only [Tokenizer.take?, Tokenizer.takeBlanks?, h.remainder?_eq, Option.map_some,
        Pattern.search?_eq, hfits, ↓reduceIte, Pattern.token?]
      rfl
    | mark c =>
      have hsplit : ((Pattern.mark c).split reading.rest).1 = [c] := by
        have haccepts := Pattern.accepts_split hfits
        rwa [Pattern.accepts, beq_iff_eq] at haccepts
      simp only [Tokenizer.take?, Pattern.token?, hsplit]
      rfl

theorem offset_lt_of_next (h : reading.next file = .ok after) : reading.offset < after.offset := by
  obtain ⟨lexeme, hlexeme, hoffset⟩ := next_whole h
  have hlonger := length_rest_lt_of_next h
  rw [← hlexeme, List.length_append] at hlonger
  have hbytes := length_le_byteLength lexeme
  omega

end Reading

/-! ### The turns and their end -/

/-- **After every turn the loop has come as far as some reading of the source**, and at least a byte
further than before. -/
theorem Tokenizer.Comes.exists_reading {source file : String} {n : Nat} {t : Tokenizer}
    (h : t.Comes source file n) :
    ∃ reading : Reading, reading.IsOf source ∧ reading.tokenizer = t ∧ n ≤ t.offset := by
  induction h with
  | start => exact ⟨Reading.start source, Reading.isOf_start source, rfl, Nat.le_refl 0⟩
  | turn _ _ hturn ih =>
    obtain ⟨reading, hof, rfl, hle⟩ := ih
    rw [Reading.turn?_eq hof] at hturn
    cases hnext : reading.next file with
    | error error => rw [hnext] at hturn; cases hturn
    | ok after =>
      rw [hnext] at hturn
      cases hturn
      have hlt : reading.offset < after.offset := Reading.offset_lt_of_next hnext
      have hle : _ ≤ reading.offset := hle
      exact ⟨after, hof.next hnext, rfl, Nat.le_trans (Nat.succ_le_succ hle) hlt⟩

/-- **The loop ends as the reading does**, after at most as many turns as bytes are left. -/
theorem Reading.exists_ends {source : String} (file : String) (reading : Reading) :
    reading.IsOf source → ∃ n, n ≤ byteLength reading.rest ∧
      reading.tokenizer.Ends source file n (reading.finish file) := by
  fun_induction Reading.finish file reading with
  | case1 reading hempty =>
    intro hof
    exact ⟨0, Nat.zero_le _, .atEnd (hof.isAtEnd_eq.trans hempty)⟩
  | case2 reading hempty error hnext =>
    intro hof
    have hturn : reading.tokenizer.turn? source file = some (.error error) := by
      rw [turn?_eq hof, hnext]
      rfl
    refine ⟨1, ?_, .fails (hof.goesOn hempty) hturn⟩
    rw [List.isEmpty_iff] at hempty
    exact Nat.le_trans (List.length_pos_iff.2 hempty) (length_le_byteLength _)
  | case3 reading hempty after hnext _ ih =>
    intro hof
    have hturn : reading.tokenizer.turn? source file = some (.ok after.tokenizer) := by
      rw [turn?_eq hof, hnext]
      rfl
    obtain ⟨n, hn, hends⟩ := ih (hof.next hnext)
    refine ⟨n + 1, ?_, .turn (hof.goesOn hempty) hturn hends⟩
    have hsize := hof.size_eq
    have hsize' := (hof.next hnext).size_eq
    have hlt := offset_lt_of_next hnext
    omega

namespace Tokenizer

variable {source file : String}

theorem Ends.unique {t : Tokenizer} {n m : Nat} {result result' : Except Error (List Token)}
    (h : t.Ends source file n result) (h' : t.Ends source file m result') :
    m = n ∧ result' = result := by
  induction h generalizing m result' with
  | atEnd hend =>
    cases h' with
    | atEnd => exact ⟨rfl, rfl⟩
    | fails hgoes => rw [hend] at hgoes; cases hgoes
    | turn hgoes => rw [hend] at hgoes; cases hgoes
  | fails hgoes hturn =>
    cases h' with
    | atEnd hend => rw [hend] at hgoes; cases hgoes
    | fails _ hturn' => rw [hturn] at hturn'; cases hturn'; exact ⟨rfl, rfl⟩
    | turn _ hturn' => rw [hturn] at hturn'; cases hturn'
  | turn hgoes hturn _ ih =>
    cases h' with
    | atEnd hend => rw [hend] at hgoes; cases hgoes
    | fails _ hturn' => rw [hturn] at hturn'; cases hturn'
    | turn _ hturn' hends' =>
      rw [hturn] at hturn'
      cases hturn'
      obtain ⟨rfl, rfl⟩ := ih hends'
      exact ⟨rfl, rfl⟩

end Tokenizer

/-! ### What every turn finds and does -/

/-- A character or the end of the source starts at the byte offset. -/
def Text.IsBoundary (source : String) (offset : Nat) : Prop :=
  ∃ front rest, front ++ rest = source.toList ∧ byteLength front = offset

/-- The loop, which has made `n` turns, is in a state in which it makes one more, and gets on. -/
structure Tokenizer.GetsOn (source file : String) (n : Nat) (t : Tokenizer) : Prop where
  /-- Each turn before has passed a byte. -/
  le_offset : n ≤ t.offset
  /-- The place is inside the source, at the start of a character. -/
  lt_size : t.offset < source.utf8ByteSize
  isBoundary : IsBoundary source t.offset
  /-- What is left of the source can be taken, also by a lexer, and there is a next character. -/
  remainder : ∃ c rest, t.remainder? source = some (c :: rest) ∧ t.next? source = some (some c) ∧
    ∀ lexer : Lexer, lexer.source = source → lexer.offset.toNat = t.offset →
      lexer.isAtEnd = false ∧ lexer.remainder? = some (c :: rest) ∧ lexer.next? = some (some c)
  /-- At most one shape of the table passes the test. -/
  one_shape : ∀ text, t.remainder? source = some text → ∀ p ∈ Pattern.table, ∀ q ∈ Pattern.table,
    p.test text = true → q.test text = true → p = q
  /-- If a shape passes the test, its search finds something. -/
  search : ∀ text, t.remainder? source = some text → ∀ p ∈ Pattern.table, p.test text = true →
    ∃ lexeme, p.search? text = some lexeme ∧ 0 < byteLength lexeme
  /-- The turn is an error, or moves the place forward to a boundary of the source. -/
  turn : ∃ result, t.turn? source file = some result ∧ ∀ u, result = .ok u →
    t.offset < u.offset ∧ u.offset ≤ source.utf8ByteSize ∧ IsBoundary source u.offset

namespace Reading

variable {source file : String} {reading : Reading}

theorem IsOf.isBoundary (h : reading.IsOf source) : IsBoundary source reading.offset := by
  obtain ⟨front, hfront⟩ := h
  exact ⟨front, reading.rest, hfront⟩

/-- A lexer at the place of a reading has the same left. -/
theorem IsOf.lexer_eq (h : reading.IsOf source) {lexer : Lexer} (hsource : lexer.source = source)
    (hoffset : lexer.offset.toNat = reading.offset) :
    lexer.isAtEnd = reading.rest.isEmpty ∧ lexer.remainder? = some reading.rest := by
  subst hsource
  constructor
  · rw [← h.isAtEnd_eq, Lexer.isAtEnd, hoffset]
    rfl
  · obtain ⟨front, hfront, hbytes⟩ := h
    exact Lexer.remainder?_eq_some_iff.2 ⟨front, hfront, hbytes.trans hoffset.symm⟩

/-- **As long as something is left, the loop gets on.** -/
theorem getsOn (h : reading.IsOf source) (hgoes : reading.rest.isEmpty = false) {n : Nat}
    (hn : n ≤ reading.offset) : reading.tokenizer.GetsOn source file n := by
  obtain ⟨c, rest, hrest⟩ : ∃ c rest, reading.rest = c :: rest :=
    List.exists_cons_of_ne_nil (List.isEmpty_eq_false_iff.1 hgoes)
  have hremainder : reading.tokenizer.remainder? source = some (c :: rest) := by
    rw [h.remainder?_eq, hrest]
  have hsize := h.size_eq
  constructor
  case le_offset => exact hn
  case lt_size =>
    show reading.offset < source.utf8ByteSize
    have hpos := c.utf8Size_pos
    rw [hsize, hrest, byteLength_cons]
    omega
  case isBoundary => exact h.isBoundary
  case remainder =>
    refine ⟨c, rest, hremainder, by rw [Tokenizer.next?, hremainder]; rfl, ?_⟩
    intro lexer hsource hoffset
    obtain ⟨hend, hlexer⟩ := h.lexer_eq hsource hoffset
    rw [hrest] at hlexer
    exact ⟨hend.trans hgoes, hlexer, by rw [Lexer.next?, hlexer]; rfl⟩
  case one_shape =>
    intro text _ p hp q hq htest htest'
    rw [Pattern.test_eq_fits] at htest htest'
    exact Pattern.eq_of_fits hp hq htest htest'
  case search => exact fun text _ p _ htest => Pattern.exists_search?_of_test htest
  case turn =>
    refine ⟨_, turn?_eq h, ?_⟩
    intro u hu
    cases hnext : reading.next file with
    | error error => rw [hnext] at hu; cases hu
    | ok after =>
      rw [hnext] at hu
      cases hu
      have hafter := h.next hnext
      refine ⟨offset_lt_of_next hnext, ?_, hafter.isBoundary⟩
      rw [hafter.size_eq]
      exact Nat.le_add_right _ _

end Reading

/-- **The loop over a source always gets on and never looks inside a character.** Whenever the loop
starts a turn, its place is a character boundary inside the source, so that what is left can be
taken and has a first character; at most one shape of the table passes the test there, and if one
does, its search finds something, and so does not leave the place as it is. The turn ends with an
error or further on, at a character boundary that is at most the end of the source. So the loop
comes to an end, after at most as many turns as the source has bytes, with the tokens of the source
or the error that there is instead. -/
theorem tokenizer_gets_on (source file : String) :
    (∀ n t, Tokenizer.Comes source file n t → t.isAtEnd source = false →
      t.GetsOn source file n) ∧
    ∃ n, n ≤ source.utf8ByteSize ∧ ∀ m result,
      Tokenizer.start.Ends source file m result ↔ m = n ∧ result = tokenize source file := by
  constructor
  · intro n t hcomes hgoes
    obtain ⟨reading, hof, rfl, hn⟩ := hcomes.exists_reading
    exact Reading.getsOn hof (hof.isAtEnd_eq.symm.trans hgoes) hn
  · obtain ⟨n, hn, hends⟩ := (Reading.start source).exists_ends file (Reading.isOf_start source)
    have hbytes : byteLength (Reading.start source).rest = source.utf8ByteSize :=
      byteLength_toList source
    refine ⟨n, hbytes ▸ hn, fun m result => ⟨hends.unique, ?_⟩⟩
    rintro ⟨rfl, rfl⟩
    exact hends

/-- After a blank of three bytes and a mark, the loop comes to a character that no shape fits. -/
theorem tokenizer_gets_on_to_letter :
    ∃ t, t.offset = 4 ∧ Tokenizer.Comes "\u3000(é" "shell" 2 t ∧ t.isAtEnd "\u3000(é" = false ∧
      t.GetsOn "\u3000(é" "shell" 2 ∧ ∃ n, n ≤ 6 ∧
        Tokenizer.start.Ends "\u3000(é" "shell" n
          (.error ⟨.unrecognised "é", Position.at 4 "shell"⟩) := by
  have hcomes : Tokenizer.Comes "\u3000(é" "shell" 2 ⟨4, [lexemeToken "shell" 3 ['(']]⟩ := by
    refine .turn (.turn (u := ⟨3, []⟩) .start ?_ ?_) ?_ ?_ <;> decide +kernel
  obtain ⟨hturns, n, hn, hends⟩ := tokenizer_gets_on "\u3000(é" "shell"
  have herror : tokenize "\u3000(é" "shell" =
      .error ⟨.unrecognised "é", Position.at 4 "shell"⟩ := by decide +kernel
  refine ⟨_, rfl, hcomes, by decide +kernel, hturns 2 _ hcomes (by decide +kernel), n, hn, ?_⟩
  exact (hends n _).2 ⟨rfl, herror.symm⟩

end Calculator
