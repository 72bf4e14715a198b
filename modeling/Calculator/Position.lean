/-
# Places in a source

A place is a byte offset in a named source, held in 32 bits: an offset that
does not fit keeps its low 32 bits. A span is the stretch between two places.
Places and spans are carried by tokens, expressions and errors; nothing here
looks into a source.

Key definitions: `Position`, `Position.at`, `Position.unknown`, `Span`, `Span.over`.
-/

namespace Calculator

/-- A byte offset in a named source. -/
structure Position where
  /-- The offset, modulo 2 ^ 32. -/
  offset : UInt32
  /-- The name of the source. -/
  file : String
deriving DecidableEq

namespace Position

/-- The place `offset` bytes into the source `file`. -/
def «at» (offset : Nat) (file : String) : Position := ⟨UInt32.ofNat offset, file⟩

/-- The place of something that stands in no source. -/
def unknown : Position := ⟨0, "<null>"⟩

theorem at_offset_toNat (offset : Nat) (file : String) :
    (Position.at offset file).offset.toNat = offset % UInt32.size := by
  simp [Position.at]

theorem at_offset_toNat_of_lt {offset : Nat} (h : offset < UInt32.size) (file : String) :
    (Position.at offset file).offset.toNat = offset := by
  rw [at_offset_toNat, Nat.mod_eq_of_lt h]

end Position

/-- The stretch of a source from `start` up to, but not including, `stop`. -/
structure Span where
  start : Position
  stop : Position
deriving DecidableEq

/-- The span of `length` bytes from the byte `offset` of the source `file`. -/
def Span.over (offset length : Nat) (file : String) : Span :=
  ⟨Position.at offset file, Position.at (offset + length) file⟩

end Calculator
