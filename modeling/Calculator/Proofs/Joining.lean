/-
# Sources that are joined

The tokens of a source that is joined from two are those of the first, without its end of
input, and then those of the second, each as many bytes further as the first one has; and
a fault of the second source is found there, as many bytes further
(`tokenize_append_eq`). Two runs of digits must not meet at the seam, as they would be one
run. Blanks may meet there, although they are read as one gap then: a reading that goes
over the segments of the first source (`Segmented.finish_append`) comes to the seam with
all that it needs to know.

Key definitions: `Position.shift`, `Span.shift`, `Token.shift`, `Error.shift`.
Key theorems: `segmentTokens_add`, `tokenize_append_eq`.
-/
import Calculator.Proofs.Unreadable

namespace Calculator

open Text

/-! ### Places further on -/

/-- The place `n` bytes further, of whose offset 32 bits are kept. -/
def Position.shift (n : Nat) (p : Position) : Position :=
  ⟨UInt32.ofNat ((p.offset.toNat + n) % 0x100000000), p.file⟩

/-- The span `n` bytes further. -/
def Span.shift (n : Nat) (s : Span) : Span := ⟨s.start.shift n, s.stop.shift n⟩

/-- The token `n` bytes further. -/
def Token.shift (n : Nat) (token : Token) : Token := { token with span := token.span.shift n }

/-- The error `n` bytes further. -/
def Error.shift (n : Nat) (error : Error) : Error := ⟨error.fault, error.position.shift n⟩

theorem Position.shift_at (n offset : Nat) (file : String) :
    (Position.at offset file).shift n = Position.at (offset + n) file := by
  rw [← Position.isAt_iff]
  constructor
  case offset_eq => simp [Position.shift, Position.at, Nat.add_mod]
  case file_eq => rfl

theorem Span.shift_over (n offset length : Nat) (file : String) :
    (Span.over offset length file).shift n = Span.over (offset + n) length file := by
  rw [Span.shift, Span.over, Position.shift_at, Position.shift_at, Nat.add_right_comm]
  rfl

theorem shift_lexemeToken (n : Nat) (file : String) (offset : Nat) (lexeme : List Char) :
    (lexemeToken file offset lexeme).shift n = lexemeToken file (offset + n) lexeme := by
  unfold lexemeToken
  split <;> rw [Token.shift, Span.shift_over]

/-- Segments further on have their tokens further on. -/
theorem segmentTokens_add (n : Nat) (file : String) : ∀ (offset : Nat) (segments : List Segment),
    segmentTokens file (offset + n) segments = (segmentTokens file offset segments).map (Token.shift n)
  | _, [] => rfl
  | offset, s :: segments => by
    rw [segmentTokens, segmentTokens, List.map_cons, shift_lexemeToken, Nat.add_right_comm offset n,
      Nat.add_right_comm offset n, segmentTokens_add n file]

theorem filter_segmentTokens (file : String) : ∀ (offset : Nat) (segments : List Segment),
    (segmentTokens file offset segments).filter (!·.isEnd) = segmentTokens file offset segments
  | _, [] => rfl
  | offset, s :: segments => by
    rw [segmentTokens, List.filter_cons, lexemeToken_isEnd, filter_segmentTokens file]
    rfl

/-! ### The seam -/

theorem Segmented.tokenize_append {a b : String} {segments : List Segment} {tail : List Char}
    (h : Segmented segments tail a.toList) (hapart : Apart a.toList b.toList) (file : String) :
    tokenize (a ++ b) file = (Reading.mk a.utf8ByteSize b.toList
      (segmentTokens file 0 segments).reverse).finish file := by
  have hfinish := h.finish_append file hapart 0 []
  rw [byteLength_toList, Nat.zero_add, List.append_nil, ← String.toList_append] at hfinish
  exact hfinish

/-- **The tokenizer goes along with joining.** Let a source be cut into tokens, and join a second one
to it so that no run of digits goes on from the one into the other. If the second is cut into tokens,
the joined source has the tokens of the first without its end of input and then those of the second,
all offsets higher by the bytes of the first, of which 32 bits are kept. If the second is not,
neither is the joined source, for the same fault, as many bytes further. -/
theorem tokenize_append_eq {a b : String} {file? : Option String} {tokens : List Token}
    (h : tokenize a file? = .ok tokens) (hapart : Apart a.toList b.toList) :
    (∀ more, tokenize b file? = .ok more → tokenize (a ++ b) file? =
      .ok (tokens.filter (!·.isEnd) ++ more.map (Token.shift a.utf8ByteSize))) ∧
    ∀ error, tokenize b file? = .error error → tokenize (a ++ b) file? =
      .error (error.shift a.utf8ByteSize) := by
  rw [tokenize_eq_some a file?] at h
  rw [tokenize_eq_some b file?, tokenize_eq_some (a ++ b) file?]
  generalize file?.getD "shell" = file at h ⊢
  obtain ⟨segments, tail, hsegmented, rfl⟩ := exists_segmented_of_tokenize h
  have htokens : (segmentTokens file 0 segments ++
      [Token.endAt (Position.at a.utf8ByteSize file)]).filter (!·.isEnd) =
        segmentTokens file 0 segments := by
    rw [List.filter_append, filter_segmentTokens]
    exact List.append_nil _
  rw [hsegmented.tokenize_append hapart file, htokens]
  constructor
  · intro more hmore
    obtain ⟨others, tail', hothers, rfl⟩ := exists_segmented_of_tokenize hmore
    have hend : (Token.endAt (Position.at b.utf8ByteSize file)).shift a.utf8ByteSize =
        Token.endAt (Position.at (b.utf8ByteSize + a.utf8ByteSize) file) := by
      rw [← Position.shift_at]
      rfl
    rw [hothers.finish_eq file, List.reverse_reverse, byteLength_toList, List.map_append,
      ← segmentTokens_add, List.map_singleton, hend, Nat.zero_add, Nat.add_comm b.utf8ByteSize,
      List.append_assoc]
  · intro error herror
    obtain ⟨front, rest, others, tail', hsource, hothers, hfront, hblocked, hposition⟩ :=
      exists_blocked_of_tokenize herror
    rw [hsource, hothers.finish_append file hfront, hblocked.finish_eq, Error.shift, hposition,
      Position.shift_at, Nat.add_comm]

/-- Blanks of three bytes each meet at the seam: `7` is followed by one, and `*` and `é` come after
one. -/
theorem tokenize_append_eq_across_blanks :
    ∃ tokens more, tokenize "7\u3000" "shell" = .ok tokens ∧
      Apart "7\u3000".toList "\u2009*".toList ∧ tokenize "\u2009*" "shell" = .ok more ∧
      tokenize ("7\u3000" ++ "\u2009*") "shell" =
        .ok (tokens.filter (!·.isEnd) ++ more.map (Token.shift 4)) ∧
      tokenize ("7\u3000" ++ "\u2009é") "shell" =
        .error ⟨.unrecognised "é", Position.at 7 "shell"⟩ := by
  have htokens : tokenize "7\u3000" "shell" = .ok [lexemeToken "shell" 0 ['7'],
      Token.endAt (Position.at 4 "shell")] := by decide +kernel
  have hmore : tokenize "\u2009*" "shell" = .ok [lexemeToken "shell" 3 ['*'],
      Token.endAt (Position.at 4 "shell")] := by decide +kernel
  have herror : tokenize "\u2009é" "shell" = .error ⟨.unrecognised "é", Position.at 3 "shell"⟩ := by
    decide +kernel
  have hmark : Apart "7\u3000".toList "\u2009*".toList :=
    apart_of_noDigit (fun c hc => by cases hc; decide) _
  have hletter : Apart "7\u3000".toList "\u2009é".toList :=
    apart_of_noDigit (fun c hc => by cases hc; decide) _
  exact ⟨_, _, htokens, hmark, hmore, (tokenize_append_eq htokens hmark).1 _ hmore,
    (tokenize_append_eq htokens hletter).2 _ herror⟩

end Calculator
