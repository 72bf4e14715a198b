/-
# Byte offsets in a text

The length of a text in UTF-8 bytes, and the cut of a text at a byte offset. An
offset past the end, or inside a character, cuts nothing.

Key definitions: `byteLength`, `cut?`.
Key theorems: `cut?_eq_some_iff`, `byteLength_append`.
-/

namespace Calculator.Text

/-- The length of a text in UTF-8 bytes. -/
def byteLength (text : List Char) : Nat := text.foldr (fun c bytes => c.utf8Size + bytes) 0

/-- The part of a text before a byte offset and the part from it on. -/
def cut? : Nat → List Char → Option (List Char × List Char)
  | 0, text => some ([], text)
  | _ + 1, [] => none
  | n + 1, c :: text =>
    if c.utf8Size ≤ n + 1 then
      (cut? (n + 1 - c.utf8Size) text).map fun parts => (c :: parts.1, parts.2)
    else none

@[simp] theorem byteLength_nil : byteLength [] = 0 := rfl

@[simp] theorem byteLength_cons (c : Char) (text : List Char) :
    byteLength (c :: text) = c.utf8Size + byteLength text := rfl

@[simp] theorem byteLength_append (front back : List Char) :
    byteLength (front ++ back) = byteLength front + byteLength back := by
  induction front with
  | nil => rw [List.nil_append, byteLength_nil, Nat.zero_add]
  | cons c front ih => rw [List.cons_append, byteLength_cons, byteLength_cons, ih, Nat.add_assoc]

theorem length_le_byteLength : ∀ text : List Char, text.length ≤ byteLength text
  | [] => Nat.le_refl 0
  | c :: text => by
    have := c.utf8Size_pos
    have := length_le_byteLength text
    simp only [List.length_cons, byteLength_cons]
    omega

/-- A text is cut exactly where its front ends. -/
theorem cut?_eq_some_iff : ∀ {n : Nat} {text front back : List Char},
    cut? n text = some (front, back) ↔ front ++ back = text ∧ byteLength front = n
  | 0, text, front, back => by
    cases front with
    | nil => simp [cut?, eq_comm]
    | cons c front =>
      have := c.utf8Size_pos
      simp only [cut?, byteLength_cons]
      constructor
      · intro h; simp at h
      · intro h; omega
  | n + 1, [], front, back => by
    cases front with
    | nil => simp [cut?]
    | cons c front => simp [cut?]
  | n + 1, c :: text, front, back => by
    have hc := c.utf8Size_pos
    rw [cut?]
    cases front with
    | nil =>
      split <;> simp
    | cons d front =>
      split
      · next hle =>
        rw [Option.map_eq_some_iff]
        constructor
        · rintro ⟨⟨f, b⟩, hcut, heq⟩
          obtain ⟨happ, hlen⟩ := cut?_eq_some_iff.1 hcut
          simp only [Prod.mk.injEq, List.cons.injEq] at heq
          obtain ⟨⟨rfl, rfl⟩, rfl⟩ := heq
          exact ⟨by rw [List.cons_append, happ], by rw [byteLength_cons, hlen]; omega⟩
        · rintro ⟨happ, hlen⟩
          rw [List.cons_append, List.cons.injEq] at happ
          obtain ⟨rfl, rfl⟩ := happ
          rw [byteLength_cons] at hlen
          exact ⟨(front, back), cut?_eq_some_iff.2 ⟨rfl, by omega⟩, rfl⟩
      · next hgt =>
        constructor
        · intro h; simp at h
        · rintro ⟨happ, hlen⟩
          rw [List.cons_append, List.cons.injEq] at happ
          obtain ⟨rfl, rfl⟩ := happ
          rw [byteLength_cons] at hlen
          omega

end Calculator.Text
