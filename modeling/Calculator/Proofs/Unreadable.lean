/-
# The first thing that cannot be read

A source that is not cut into tokens has one place to blame: the source up to
there is cut into tokens, and there stands a character that starts no lexeme, or
a whole run of digits that stands for too large a number
(`tokenize_eq_error_iff_unreadableAt`). The two kinds do not compete, as a
reading comes to one text at a time, and nothing before the place can be blamed:
a reading goes over all that is cut into tokens in front of it
(`Segmented.finish_append`) and would stop at the earlier place
(`Text.Blocked.of_append`).

Key definitions: `UnreadableAt`.
Key theorems: `Segmented.finish_append`, `Text.Blocked.finish_eq`, `UnreadableAt.unique`,
`tokenize_eq_error_iff_unreadableAt`.
-/
import Calculator.Proofs.Places

namespace Calculator

open Text

namespace Text

theorem Apart.noDigit {run rest : List Char} (h : Apart run rest) (hrun : IsRun run) :
    NoDigit rest := by
  intro d hd
  have hlast : run.getLast? = some (run.getLast hrun.1) := List.getLast?_eq_some_getLast hrun.1
  exact h _ d hlast hd (hrun.2 _ (List.getLast_mem hrun.1))

/-- What blocks a text blocks already the part of it that is apart from the rest. -/
theorem Blocked.of_append {front rest : List Char} {fault : Fault}
    (h : Blocked (front ++ rest) fault) (hne : front ≠ []) (hapart : Apart front rest) :
    Blocked front fault := by
  generalize htext : front ++ rest = text at h
  cases h with
  | stray hdigit hblank hmark =>
    cases front with
    | nil => exact absurd rfl hne
    | cons c front =>
      rw [(List.cons.inj htext).1]
      exact .stray hdigit hblank hmark
  | @bigRun run after hrun hno hbig =>
    rcases List.append_eq_append_iff.1 htext with ⟨more, hsplit, hrest⟩ | ⟨more, hsplit, hafter⟩
    · -- all of the front is in the run, so as the run does not go on after it, it is the run
      have hfront : IsRun front := ⟨hne, fun c hc => hrun.2 c (by rw [hsplit]; simp [hc])⟩
      have hnil : more = [] := by
        cases more with
        | nil => rfl
        | cons d more =>
          have hd : d.isDigit = true := hrun.2 d (by rw [hsplit]; simp)
          rw [hapart.noDigit hfront d (by rw [hrest]; rfl)] at hd
          cases hd
      rw [hnil, List.append_nil] at hsplit
      have hblocked : Blocked (run ++ []) (.badNumber (String.ofList run)) :=
        .bigRun hrun (fun d hd => by cases hd) hbig
      rw [List.append_nil] at hblocked
      rwa [← hsplit]
    · rw [hsplit]
      refine .bigRun hrun (fun d hd => hno d ?_) hbig
      rw [hafter, List.head?_append, hd]
      rfl

/-- A reading stops where nothing can be read. -/
theorem Blocked.finish_eq {text : List Char} {fault : Fault} (h : Blocked text fault)
    (file : String) (offset : Nat) (found : List Token) :
    (Reading.mk offset text found).finish file = .error ⟨fault, Position.at offset file⟩ := by
  cases h with
  | bigRun hrun hno hbig => exact Reading.finish_bigRun hrun hbig hno
  | @stray c rest hdigit hblank hmark =>
    have hnone : Pattern.first? (c :: rest) = none := by
      refine List.find?_eq_none.2 fun pattern hp hfits => ?_
      rw [Pattern.fits_cons] at hfits
      cases pattern with
      | digits => rw [Pattern.starts, hdigit] at hfits; cases hfits
      | blanks => rw [Pattern.starts, hblank] at hfits; cases hfits
      | mark d =>
        have hd : c = d := by simpa [Pattern.starts] using hfits
        exact hmark (hd ▸ Pattern.mem_marks_of_mark_mem hp)
    rw [Reading.finish_eq, Reading.next, hnone]
    rfl

end Text

/-- A reading goes over a segmented text, if the text is apart from what follows. -/
theorem Segmented.finish_append (file : String) {rest : List Char} :
    ∀ {segments : List Segment} {tail front : List Char}, Segmented segments tail front →
    Apart front rest → ∀ (offset : Nat) (found : List Token),
    (Reading.mk offset (front ++ rest) found).finish file =
      (Reading.mk (offset + byteLength front) rest
        ((segmentTokens file offset segments).reverse ++ found)).finish file
  | [], tail, front, h, _, offset, found => by
    obtain ⟨rfl, htail⟩ := segmented_nil_iff.1 h
    exact Reading.finish_gap htail rest
  | s :: segments, tail, front, h, hapart, offset, found => by
    obtain ⟨hgap, hlexeme, more, rfl, hno, hmore⟩ := segmented_cons_iff.1 h
    have hne : s.lexeme ++ more ≠ [] := by
      obtain ⟨c, others, hcons, -⟩ := hlexeme.head_not_blank
      rw [hcons]
      exact List.cons_ne_nil c _
    have hapart : Apart (s.lexeme ++ more) rest := (apart_append_iff hne s.gap rest).1 hapart
    have hwhole : (IsRun s.lexeme → NoDigit (more ++ rest)) ∧ Apart more rest := by
      by_cases hempty : more = []
      · rw [hempty, List.append_nil] at hapart
        rw [hempty, List.nil_append]
        exact ⟨hapart.noDigit, apart_nil_left rest⟩
      · refine ⟨fun hrun d hd => hno hrun d ?_, (apart_append_iff hempty s.lexeme rest).1 hapart⟩
        rwa [List.head?_append_of_ne_nil _ hempty] at hd
    obtain ⟨hrun, hrest⟩ := hwhole
    rw [List.append_assoc, List.append_assoc, Reading.finish_gap hgap,
      Reading.finish_lexeme hlexeme hrun, hmore.finish_append file hrest]
    simp only [segmentTokens, Segment.text, byteLength_append, List.reverse_cons,
      List.append_assoc, Nat.add_assoc, List.cons_append, List.nil_append]

/-! ### The place to blame -/

/-- Nothing can be read at the byte offset, for the reason given. The source up to there is cut into
tokens, and no run of digits goes on from it into what follows. -/
def UnreadableAt (source file : String) (p : Nat) (fault : Fault) : Prop :=
  ∃ front rest, cut? p source.toList = some (front, rest) ∧
    (∃ tokens, tokenize (String.ofList front) file = .ok tokens) ∧
    Apart front rest ∧ Blocked rest fault

theorem finish_of_blocked {front rest : List Char} {file : String} {tokens : List Token}
    {fault : Fault} (h : tokenize (String.ofList front) file = .ok tokens)
    (hapart : Apart front rest) (hblocked : Blocked rest fault) :
    (Reading.mk 0 (front ++ rest) []).finish file =
      .error ⟨fault, Position.at (byteLength front) file⟩ := by
  obtain ⟨segments, tail, hsegmented, -⟩ := exists_segmented_of_tokenize h
  rw [String.toList_ofList] at hsegmented
  rw [hsegmented.finish_append file hapart, hblocked.finish_eq, Nat.zero_add]

namespace UnreadableAt

variable {source file : String} {p q : Nat} {fault fault' : Fault}

theorem tokenize_eq (h : UnreadableAt source file p fault) :
    tokenize source file = .error ⟨fault, Position.at p file⟩ := by
  obtain ⟨front, rest, hcut, ⟨tokens, htokens⟩, hapart, hblocked⟩ := h
  obtain ⟨hsource, hlength⟩ := cut?_eq_some_iff.1 hcut
  have hfinish := finish_of_blocked htokens hapart hblocked
  rw [hsource, hlength] at hfinish
  exact hfinish

theorem not_lt (h : UnreadableAt source file p fault) (h' : UnreadableAt source file q fault') :
    ¬ p < q := by
  intro hlt
  obtain ⟨front, rest, hcut, ⟨tokens, htokens⟩, hapart, hblocked⟩ := h
  obtain ⟨front', rest', hcut', ⟨tokens', htokens'⟩, hapart', -⟩ := h'
  obtain ⟨hsource, hlength⟩ := cut?_eq_some_iff.1 hcut
  obtain ⟨hsource', hlength'⟩ := cut?_eq_some_iff.1 hcut'
  obtain ⟨between, hfront', hrest⟩ : ∃ between, front' = front ++ between ∧ rest = between ++ rest' := by
    rcases List.append_eq_append_iff.1 (hsource.trans hsource'.symm) with h | ⟨between, hfront, -⟩
    · exact h
    · rw [hfront, byteLength_append] at hlength
      omega
  have hne : between ≠ [] := by
    rintro rfl
    rw [hfront', List.append_nil] at hlength'
    omega
  rw [hfront'] at hapart' htokens'
  rw [hrest] at hblocked hapart
  have hbetween : Apart between rest' := (apart_append_iff hne front rest').1 hapart'
  have hbefore : Apart front between := by
    intro c d hc hd
    exact hapart c d hc (by rw [List.head?_append_of_ne_nil _ hne, hd])
  have hfail := finish_of_blocked htokens hbefore (hblocked.of_append hne hbetween)
  have hread : (Reading.mk 0 (String.ofList (front ++ between)).toList []).finish file =
      .ok tokens' := htokens'
  rw [String.toList_ofList, hfail] at hread
  cases hread

/-- **There is one place to blame, and one reason.** -/
theorem unique (h : UnreadableAt source file p fault) (h' : UnreadableAt source file q fault') :
    p = q ∧ fault = fault' := by
  refine ⟨Nat.le_antisymm (Nat.not_lt.1 (h'.not_lt h)) (Nat.not_lt.1 (h.not_lt h')), ?_⟩
  have heq := h.tokenize_eq.symm.trans h'.tokenize_eq
  rw [Except.error.injEq, Error.mk.injEq] at heq
  exact heq.1

end UnreadableAt

/-- **The tokenizer reports exactly the first thing that cannot be read.** It fails exactly if there
is a place up to which the source is cut into tokens and at which there stands a character that is no
digit, no blank and no mark, or a whole run of digits whose number is 2 ^ 63 or more. There is one
such place. The error quotes this one character or the whole run, and is reported at the offset of
the place, of which 32 bits are kept, in the file, which is the shell if none is given. -/
theorem tokenize_eq_error_iff_unreadableAt (source : String) (file? : Option String) :
    (∀ error, tokenize source file? = .error error ↔
      ∃ p, UnreadableAt source (file?.getD "shell") p error.fault ∧
        error.position.offset.toNat = p % 0x100000000 ∧
        error.position.file = file?.getD "shell") ∧
    ∀ p q fault fault', UnreadableAt source (file?.getD "shell") p fault →
      UnreadableAt source (file?.getD "shell") q fault' → p = q ∧ fault = fault' := by
  rw [tokenize_eq_some source file?]
  generalize file?.getD "shell" = file
  refine ⟨fun error => ⟨fun h => ?_, ?_⟩, fun _ _ _ _ h h' => h.unique h'⟩
  · obtain ⟨front, rest, segments, tail, hsource, hsegmented, hapart, hblocked, hposition⟩ :=
      exists_blocked_of_tokenize h
    have hfront : Segmented segments tail (String.ofList front).toList := by
      rwa [String.toList_ofList]
    refine ⟨byteLength front, ⟨front, rest, cut?_eq_some_iff.2 ⟨hsource.symm, rfl⟩,
      ⟨_, hfront.tokenize_eq file⟩, hapart, hblocked⟩, ?_, ?_⟩
    · rw [hposition]
      exact Position.at_offset_toNat _ file
    · rw [hposition]
      rfl
  · rintro ⟨p, hunreadable, hoffset, hfile⟩
    rw [hunreadable.tokenize_eq, ← Position.isAt_iff.1 ⟨hoffset, hfile⟩]

/-- In `007 + 9223372036854775808$` the run is what is reported, and not the character after it. -/
theorem unreadableAt_run :
    tokenize "007 + 9223372036854775808$" none =
      .error ⟨.badNumber "9223372036854775808", Position.at 6 "shell"⟩ ∧
    (∃ p, UnreadableAt "007 + 9223372036854775808$" "shell" p (.badNumber "9223372036854775808")) ∧
    ∀ p, ¬ UnreadableAt "007 + 9223372036854775808$" "shell" p (.unrecognised "$") := by
  obtain ⟨hiff, hunique⟩ := tokenize_eq_error_iff_unreadableAt "007 + 9223372036854775808$" none
  have htokens : tokenize "007 + 9223372036854775808$" none =
      .error ⟨.badNumber "9223372036854775808", Position.at 6 "shell"⟩ := by decide +kernel
  obtain ⟨p, hrun, -⟩ := (hiff _).1 htokens
  refine ⟨htokens, ⟨p, hrun⟩, fun q hstray => ?_⟩
  obtain ⟨-, hfault⟩ := hunique p q _ _ hrun hstray
  cases hfault

end Calculator
