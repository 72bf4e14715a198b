/-
# Lines counted in bytes

The line of a byte offset, said of the bytes of the source alone. A newline is a
single byte that is in no other character, so the newlines among the bytes are
those of the text (`Text.count_utf8`). A source is cut into four parts around an
offset (`LineCut`): what comes before the line of the offset, the line up to the
offset, the line from there on up to its newline, and the rest from that newline
on. The cut of the text gives the one of the bytes, also if the offset lies
inside a character, and both show the same line (`lineAt?_between_newlines`).

Key definitions: `Text.newline`, `Text.utf8`, `lineStart`, `lineStop`, `LineCut`.
Key theorems: `Text.utf8_toList`, `Text.count_utf8`, `LineCut.locate?_eq`, `LineCut.utf8`,
`LineCut.around`, `exists_lineAt?_eq`, `lineAt?_between_newlines`.
-/
import Calculator.Proofs.Lines

namespace Calculator

namespace Text

/-! ### The bytes of a text -/

/-- The byte of a newline. -/
def newline : UInt8 := 0x0a

/-- The bytes of a text in UTF-8. -/
def utf8 (text : List Char) : List UInt8 := text.flatMap String.utf8EncodeChar

theorem utf8_cons (c : Char) (text : List Char) :
    utf8 (c :: text) = String.utf8EncodeChar c ++ utf8 text := rfl

@[simp] theorem utf8_append (front rest : List Char) :
    utf8 (front ++ rest) = utf8 front ++ utf8 rest := List.flatMap_append

@[simp] theorem length_utf8 : ∀ text : List Char, (utf8 text).length = byteLength text
  | [] => rfl
  | c :: text => by
    rw [utf8_cons, List.length_append, String.length_utf8EncodeChar, length_utf8 text,
      byteLength_cons]

/-- The bytes of its characters are those that a string is stored in. -/
theorem utf8_toList (source : String) : utf8 source.toList = source.toUTF8.data.toList := by
  have hbytes : source.toList.utf8Encode = source.toByteArray := String.utf8Encode_toList
  rw [String.toUTF8_eq_toByteArray, ← hbytes, List.utf8Encode, List.toList_data_toByteArray, utf8]

theorem utf8_append_inner (extra : Nat) (front inner rest : List Char) :
    utf8 (front ++ (inner ++ rest)) = (utf8 front ++ (utf8 inner).take extra) ++
      ((utf8 inner).drop extra ++ utf8 rest) := by
  rw [utf8_append, utf8_append]
  conv => lhs; rw [← List.take_append_drop extra (utf8 inner)]
  simp only [List.append_assoc]

theorem le_of_mem_utf8EncodeChar {c : Char} (hc : 0x7f < c.val.toNat) :
    ∀ byte ∈ String.utf8EncodeChar c, 0x80 ≤ byte.toNat := by
  unfold String.utf8EncodeChar
  rw [if_neg (Nat.not_le.2 hc)]
  -- one case for each of the lengths 2, 3 and 4
  split
  · simp only [List.forall_mem_cons, List.not_mem_nil, false_implies, implies_true, and_true,
      UInt8.toNat_ofNat']
    omega
  · split <;>
    · simp only [List.forall_mem_cons, List.not_mem_nil, false_implies, implies_true, and_true,
        UInt8.toNat_ofNat']
      omega

theorem eq_newline_of_mem {c : Char} (h : newline ∈ String.utf8EncodeChar c) : c = '\n' := by
  by_cases hc : c.val.toNat ≤ 0x7f
  · unfold String.utf8EncodeChar at h
    rw [if_pos hc, List.mem_singleton] at h
    have hval := congrArg UInt8.toNat h
    rw [UInt8.toNat_ofNat_of_lt' (Nat.lt_of_le_of_lt hc (by decide))] at hval
    exact Char.ext (UInt32.toNat_inj.1 hval.symm)
  · exact absurd (le_of_mem_utf8EncodeChar (Nat.lt_of_not_le hc) _ h) (by decide)

/-- The newlines of a text are those among its bytes. -/
theorem count_utf8 : ∀ text : List Char, (utf8 text).count newline = text.count '\n'
  | [] => rfl
  | c :: text => by
    rw [utf8_cons, List.count_append, count_utf8 text, List.count_cons, Nat.add_comm]
    by_cases hc : c = '\n'
    · subst hc
      rfl
    · rw [List.count_eq_zero.2 fun hmem => hc (eq_newline_of_mem hmem), beq_false_of_ne hc]
      rfl

theorem newline_not_mem_utf8 {text : List Char} (h : '\n' ∉ text) : newline ∉ utf8 text := by
  rw [← List.count_eq_zero, count_utf8, List.count_eq_zero]
  exact h

end Text

open Text

/-! ### The newlines around a byte offset -/

/-- The offset just after the last newline among the bytes before the offset, or 0 if there is
none. -/
def lineStart (bytes : List UInt8) (offset : Nat) : Nat :=
  match (bytes.take offset).reverse.idxOf? newline with
  | some back => offset - back
  | none => 0

/-- The offset just after the first newline among the bytes from the offset on, or the number of all
bytes if there is none. -/
def lineStop (bytes : List UInt8) (offset : Nat) : Nat :=
  match (bytes.drop offset).idxOf? newline with
  | some ahead => offset + ahead + 1
  | none => bytes.length

theorem idxOf?_append_cons {byte : UInt8} : ∀ {front : List UInt8}, byte ∉ front →
    ∀ rest : List UInt8, (front ++ byte :: rest).idxOf? byte = some front.length
  | [], _, rest => by rw [List.nil_append, List.idxOf?_cons, beq_self_eq_true, if_pos rfl]; rfl
  | b :: front, h, rest => by
    rw [List.mem_cons, not_or] at h
    rw [List.cons_append, List.idxOf?_cons, beq_false_of_ne (Ne.symm h.1), if_neg Bool.false_ne_true,
      idxOf?_append_cons h.2]
    rfl

/-! ### A list cut around a place -/

/-- A list in four parts around a place in a line: what ends before the line, the line up to the
place, the line from the place on but for the mark at its end, and the rest from that mark on. -/
structure LineCut {α : Type} (mark : α) (head before inner more : List α) : Prop where
  head_ends : head = [] ∨ ∃ first, head = first ++ [mark]
  before_open : mark ∉ before
  inner_open : mark ∉ inner
  more_starts : more = [] ∨ ∃ tail, more = mark :: tail

theorem exists_lineCut (front rest : List Char) : ∃ head before inner more,
    front = head ++ before ∧ rest = inner ++ more ∧ LineCut '\n' head before inner more := by
  have hfront : ∃ head before, front = head ++ before ∧
      (head = [] ∨ ∃ first, head = first ++ ['\n']) ∧ '\n' ∉ before := by
    by_cases hnewline : '\n' ∈ front
    · obtain ⟨back, first, heq, hback⟩ := List.eq_append_cons_of_mem (List.mem_reverse.2 hnewline)
      refine ⟨first.reverse ++ ['\n'], back.reverse, ?_, .inr ⟨_, rfl⟩, by simpa using hback⟩
      rw [← List.reverse_reverse front, heq]
      simp
    · exact ⟨[], front, rfl, .inl rfl, hnewline⟩
  have hrest : ∃ inner more, rest = inner ++ more ∧ '\n' ∉ inner ∧
      (more = [] ∨ ∃ tail, more = '\n' :: tail) := by
    by_cases hnewline : '\n' ∈ rest
    · obtain ⟨inner, tail, heq, hinner⟩ := List.eq_append_cons_of_mem hnewline
      exact ⟨inner, '\n' :: tail, heq, hinner, .inr ⟨tail, rfl⟩⟩
    · exact ⟨rest, [], (List.append_nil rest).symm, hnewline, .inl rfl⟩
  obtain ⟨head, before, hfront, hhead, hbefore⟩ := hfront
  obtain ⟨inner, more, hrest, hinner, hmore⟩ := hrest
  exact ⟨head, before, inner, more, hfront, hrest, hhead, hbefore, hinner, hmore⟩

namespace LineCut

section Characters

variable {head before inner more : List Char}

theorem lineBefore_eq (h : LineCut '\n' head before inner more) :
    lineBefore (head ++ before) = before := by
  rcases h.head_ends with rfl | ⟨first, rfl⟩
  · exact lineBefore_of_not_mem h.before_open
  · rw [List.append_assoc, List.singleton_append, lineBefore_append_newline,
      lineBefore_of_not_mem h.before_open]

theorem lineAfter_eq (h : LineCut '\n' head before inner more) :
    lineAfter (inner ++ more) = inner ++ more.take 1 := by
  rcases h.more_starts with rfl | ⟨tail, rfl⟩
  · rw [List.append_nil, lineAfter_of_not_mem h.inner_open, List.take_nil, List.append_nil]
  · rw [lineAfter_append_newline h.inner_open]
    rfl

/-- The line of the place is the two middle parts, with the newline after them. -/
theorem locate?_eq (h : LineCut '\n' head before inner more) {extra : Nat}
    (hin : Inside extra (inner ++ more)) (number : Nat) :
    locate? (lines ((head ++ before) ++ (inner ++ more))) number
        (byteLength (head ++ before) + extra) =
      some ⟨number + head.count '\n', before ++ (inner ++ more.take 1),
        byteLength before + extra⟩ := by
  rw [locate?_lines hin, h.lineBefore_eq, h.lineAfter_eq, List.count_append,
    List.count_eq_zero.2 h.before_open, Nat.add_zero]

theorem le_byteLength (h : LineCut '\n' head before inner more) {extra : Nat}
    (hin : Inside extra (inner ++ more)) : extra ≤ byteLength inner := by
  rcases hin with rfl | ⟨c, rest, heq, hlt⟩
  · exact Nat.zero_le _
  · cases inner with
    | nil =>
      rcases h.more_starts with rfl | ⟨tail, rfl⟩
      · cases heq
      · cases heq
        exact Nat.le_of_lt_succ hlt
    | cons d inner =>
      cases heq
      rw [byteLength_cons]
      omega

/-- The bytes are cut as the text is, or `extra` bytes further on in the line. -/
theorem utf8 (h : LineCut '\n' head before inner more) (extra : Nat) :
    LineCut newline (utf8 head) (utf8 before ++ (utf8 inner).take extra)
      ((utf8 inner).drop extra) (utf8 more) where
  head_ends := by
    rcases h.head_ends with rfl | ⟨first, rfl⟩
    · exact .inl rfl
    · exact .inr ⟨Text.utf8 first, utf8_append first ['\n']⟩
  before_open := by
    rw [List.mem_append, not_or]
    exact ⟨newline_not_mem_utf8 h.before_open,
      fun hmem => newline_not_mem_utf8 h.inner_open (List.mem_of_mem_take hmem)⟩
  inner_open := fun hmem => newline_not_mem_utf8 h.inner_open (List.mem_of_mem_drop hmem)
  more_starts := by
    rcases h.more_starts with rfl | ⟨tail, rfl⟩
    · exact .inl rfl
    · exact .inr ⟨Text.utf8 tail, utf8_cons '\n' tail⟩

theorem utf8_take_one (h : LineCut '\n' head before inner more) :
    Text.utf8 (more.take 1) = (Text.utf8 more).take 1 := by
  rcases h.more_starts with rfl | ⟨tail, rfl⟩ <;> rfl

end Characters

section Bytes

variable {head before inner more : List UInt8}

theorem lineStart_eq (h : LineCut newline head before inner more) :
    lineStart ((head ++ before) ++ (inner ++ more)) (head ++ before).length = head.length := by
  have hback : newline ∉ before.reverse := fun hmem => h.before_open (List.mem_reverse.1 hmem)
  rw [lineStart, List.take_left, List.reverse_append]
  rcases h.head_ends with rfl | ⟨first, rfl⟩
  · rw [List.reverse_nil, List.append_nil, List.idxOf?_eq_none_iff.2 hback]
    rfl
  · rw [List.reverse_append, List.reverse_singleton, List.singleton_append,
      idxOf?_append_cons hback]
    simp only [List.length_reverse, List.length_append, Nat.add_sub_cancel]

theorem lineStop_eq (h : LineCut newline head before inner more) :
    lineStop ((head ++ before) ++ (inner ++ more)) (head ++ before).length =
      (head ++ before).length + (inner ++ more.take 1).length := by
  rw [lineStop, List.drop_left]
  rcases h.more_starts with rfl | ⟨tail, rfl⟩
  · rw [List.append_nil, List.idxOf?_eq_none_iff.2 h.inner_open, List.take_nil, List.append_nil]
    exact List.length_append
  · rw [idxOf?_append_cons h.inner_open]
    simp only [List.take_succ_cons, List.take_zero, List.length_append, List.length_singleton]
    rfl

theorem extract_eq (h : LineCut newline head before inner more) :
    ((head ++ before) ++ (inner ++ more)).extract
        (lineStart ((head ++ before) ++ (inner ++ more)) (head ++ before).length)
        (lineStop ((head ++ before) ++ (inner ++ more)) (head ++ before).length) =
      before ++ (inner ++ more.take 1) := by
  rw [h.lineStart_eq, h.lineStop_eq, List.extract_eq_take_drop, List.length_append, Nat.add_assoc,
    Nat.add_sub_cancel_left, List.append_assoc, List.drop_left, List.take_length_add_append,
    List.length_append, List.take_length_add_append]
  rcases h.more_starts with rfl | ⟨tail, rfl⟩ <;> rfl

theorem count_take (h : LineCut newline head before inner more) :
    (((head ++ before) ++ (inner ++ more)).take (head ++ before).length).count newline =
      head.count newline := by
  rw [List.take_left, List.count_append, List.count_eq_zero.2 h.before_open, Nat.add_zero]

/-- What the newlines around an offset tell, if the bytes are cut at it. -/
theorem around (h : LineCut newline head before inner more) {bytes : List UInt8} {offset : Nat}
    (hbytes : bytes = (head ++ before) ++ (inner ++ more)) (hoffset : offset = (head ++ before).length) :
    (bytes.take offset).count newline = head.count newline ∧
    lineStart bytes offset = head.length ∧
    bytes.extract (lineStart bytes offset) (lineStop bytes offset) =
      before ++ (inner ++ more.take 1) := by
  subst hbytes hoffset
  exact ⟨h.count_take, h.lineStart_eq, h.extract_eq⟩

end Bytes

end LineCut

/-! ### The line of every byte offset -/

theorem exists_inside : ∀ {text : List Char} {offset : Nat}, offset ≤ byteLength text →
    ∃ front rest extra, text = front ++ rest ∧ offset = byteLength front + extra ∧ Inside extra rest
  | [], _, h => ⟨[], [], 0, rfl, Nat.le_zero.1 h, .inl rfl⟩
  | c :: text, offset, h => by
    rw [byteLength_cons] at h
    by_cases hlt : offset < c.utf8Size
    · exact ⟨[], c :: text, offset, rfl, (Nat.zero_add offset).symm, .inr ⟨c, text, rfl, hlt⟩⟩
    · have hle : offset - c.utf8Size ≤ byteLength text := by omega
      obtain ⟨front, rest, extra, rfl, hoffset, hin⟩ := exists_inside hle
      refine ⟨c :: front, rest, extra, rfl, ?_, hin⟩
      rw [byteLength_cons]
      omega

theorem locate?_eq_none : ∀ {rows : List (List Char)} {offset : Nat},
    byteLength rows.flatten < offset → ∀ number : Nat, locate? rows number offset = none
  | [], 0, h, _ => absurd h (Nat.lt_irrefl 0)
  | [], _ + 1, _, _ => rfl
  | row :: rows, offset, h, number => by
    rw [List.flatten_cons, byteLength_append] at h
    rw [locate?, if_neg (by omega)]
    exact locate?_eq_none (by omega) (number + 1)

/-- **The line of a byte offset lies between the newlines around it.** There is one exactly if the
offset is not past the end of the source. Its number is one more than the number of newlines among
the bytes before the offset, its text has the bytes from just after the last of these up to the next
newline, with that, and the offset in it is counted from where it starts. -/
theorem lineAt?_between_newlines (source : String) (offset : Nat) :
    (lineAt? source offset).map (fun line => (line.number, utf8 line.text, line.offset)) =
      let bytes := source.toUTF8.data.toList
      if offset ≤ bytes.length then
        some (1 + (bytes.take offset).count newline,
          bytes.extract (lineStart bytes offset) (lineStop bytes offset),
          offset - lineStart bytes offset)
      else none := by
  rw [← utf8_toList, lineAt?]
  generalize source.toList = text
  simp only [length_utf8]
  by_cases hle : offset ≤ byteLength text
  · rw [if_pos hle]
    obtain ⟨front, rest, extra, rfl, rfl, hin⟩ := exists_inside hle
    obtain ⟨head, before, inner, more, rfl, rfl, hcut⟩ := exists_lineCut front rest
    -- the bytes are cut at the offset, in the middle of a character if it lies inside one
    have hbytes : utf8 ((head ++ before) ++ (inner ++ more)) =
        (utf8 head ++ (utf8 before ++ (utf8 inner).take extra)) ++
          ((utf8 inner).drop extra ++ utf8 more) := by
      rw [utf8_append_inner extra, utf8_append, List.append_assoc (utf8 head)]
    have hoffset : byteLength (head ++ before) + extra =
        (utf8 head ++ (utf8 before ++ (utf8 inner).take extra)).length := by
      simp only [List.length_append, List.length_take, length_utf8, byteLength_append,
        Nat.min_eq_left (hcut.le_byteLength hin), Nat.add_assoc]
    obtain ⟨hnumber, hstart, htext⟩ := (hcut.utf8 extra).around hbytes hoffset
    have hcolumn : byteLength (head ++ before) + extra - (utf8 head).length =
        byteLength before + extra := by
      rw [length_utf8, byteLength_append, Nat.add_assoc, Nat.add_sub_cancel_left]
    rw [hcut.locate?_eq hin, Option.map_some, htext, hstart, hnumber, hcolumn, count_utf8,
      utf8_append_inner extra before, hcut.utf8_take_one]
  · rw [if_neg hle, locate?_eq_none (by rw [lines_flatten]; exact Nat.lt_of_not_le hle)]
    rfl

/-- The first offset lies inside a character, the second after the newline at the end. -/
example : lineAt? "é\n" 1 = some ⟨1, ['é', '\n'], 1⟩ ∧ lineAt? "é\n" 3 = some ⟨2, [], 0⟩ := by
  decide

end Calculator
