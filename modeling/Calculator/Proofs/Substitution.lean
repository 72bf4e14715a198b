/-
# A group in the place of an integer

Where a parse takes an integer, it can as well take a whole expression in
parentheses: the operators around the group do not reach into it, and those in it
do not reach out. The tokens with the group in them parse exactly if the limit has
room for the groups around it, and for the group itself with those in it; and the
expression is the old one with the new one in the place of the leaf. What it
evaluates to depends on the new one only through its value.

A place in an expression is named by the way from the root down to it.

Key definitions: `Side`, `Expr.part?`, `Expr.replace`, `LeafAt`.
Key theorems: `Expr.evaluate_replace`, `Derives.exists_leafAt`, `nesting_graft`, `parse_graft`.
-/
import Calculator.Proofs.Arithmetic
import Calculator.Proofs.Calls
import Calculator.Proofs.Reading

namespace Calculator

/-! ### Places in an expression -/

/-- An operand of an operator. -/
inductive Side
  | left
  | right
deriving DecidableEq

namespace Expr

/-- The part of an expression at the end of a way down from the root, if the way leads anywhere. -/
def part? : List Side → Expr → Option Expr
  | [], e => some e
  | .left :: way, binary _ left _ _ => left.part? way
  | .right :: way, binary _ _ right _ => right.part? way
  | _ :: _, number .. => none

/-- The expression with `x` in the place of its part at the end of a way down from the root. -/
def replace (x : Expr) : List Side → Expr → Expr
  | [], _ => x
  | .left :: way, binary op left right span => binary op (replace x way left) right span
  | .right :: way, binary op left right span => binary op left (replace x way right) span
  | _ :: _, number value span => number value span

theorem value_replace {x y : Expr} (h : x.value = y.value) : ∀ (way : List Side) (e : Expr),
    (replace x way e).value = (replace y way e).value
  | [], _ => h
  | .left :: _, number .. => rfl
  | .right :: _, number .. => rfl
  | .left :: way, binary op left right span => by
    rw [replace, replace, value_binary, value_binary, value_replace h way left]
  | .right :: way, binary op left right span => by
    rw [replace, replace, value_binary, value_binary, value_replace h way right]

theorem evaluate_replace {x y : Expr} (h : x.evaluate = y.evaluate) (way : List Side) (e : Expr) :
    (replace x way e).evaluate = (replace y way e).evaluate := by
  simp only [evaluate_eq_value] at h ⊢
  exact value_replace h way e

end Expr

/-! ### The leaf of a token -/

/-- In a phrase, the token between the two lists is the number at the end of the way into the
expression, and any other atom in its place is the part of the expression there. -/
structure LeafAt (rule : Rule) (room : Nat) (before : List Token) (token : Token)
    (after : List Token) (e : Expr) (way : List Side) : Prop where
  isInteger : token.isInteger = true
  part : ∃ value, token.number = some value ∧ e.part? way = some (.number value token.span)
  graft : ∀ extra inner x, Derives .atom extra inner x →
    Derives rule (room + extra) (before ++ (inner ++ after)) (.replace x way e)

namespace LeafAt

variable {rule tighter : Rule} {room : Nat} {before after : List Token} {token : Token}
  {way : List Side}

theorem number {value : Int64} (hint : token.isInteger = true) (hnum : token.number = some value) :
    LeafAt .atom room [] token [] (.number value token.span) [] where
  isInteger := hint
  part := ⟨value, hnum, rfl⟩
  graft extra inner x hx := by
    rw [List.nil_append, List.append_nil]
    exact hx.mono (Nat.le_add_left extra room)

theorem group {first last : Token} {e : Expr} (ho : first.isOpen = true) (hc : last.isClose = true)
    (h : LeafAt .sum room before token after e way) :
    LeafAt .atom (room + 1) (first :: before) token (after ++ [last]) e way where
  isInteger := h.isInteger
  part := h.part
  graft extra inner x hx := by
    have hgroup := Derives.group ho hc (h.graft extra inner x hx)
    rw [Nat.add_right_comm]
    simpa only [List.cons_append, List.append_assoc] using hgroup

theorem single {e : Expr} (hr : rule.operand? = some tighter)
    (h : LeafAt tighter room before token after e way) :
    LeafAt rule room before token after e way where
  isInteger := h.isInteger
  part := h.part
  graft extra inner x hx := .single hr (h.graft extra inner x hx)

theorem left {op : Operator} {sign : Token} {left right : Expr} {second : List Token}
    (hr : rule.operand? = some tighter) (hop : op ∈ rule.operators) (hs : sign.isSign op = true)
    (h : LeafAt rule room before token after left way) (hright : Derives tighter room second right) :
    LeafAt rule room before token (after ++ sign :: second) (.binary op left right sign.span)
      (.left :: way) where
  isInteger := h.isInteger
  part := h.part
  graft extra inner x hx := by
    have hbinary := Derives.binary hr hop hs (h.graft extra inner x hx)
      (hright.mono (Nat.le_add_right room extra))
    rw [Expr.replace]
    simpa only [List.append_assoc] using hbinary

theorem right {op : Operator} {sign : Token} {left right : Expr} {first : List Token}
    (hr : rule.operand? = some tighter) (hop : op ∈ rule.operators) (hs : sign.isSign op = true)
    (hleft : Derives rule room first left) (h : LeafAt tighter room before token after right way) :
    LeafAt rule room (first ++ sign :: before) token after (.binary op left right sign.span)
      (.right :: way) where
  isInteger := h.isInteger
  part := h.part
  graft extra inner x hx := by
    have hbinary := Derives.binary hr hop hs (hleft.mono (Nat.le_add_right room extra))
      (h.graft extra inner x hx)
    rw [Expr.replace]
    simpa only [List.cons_append, List.append_assoc] using hbinary

end LeafAt

/-- A token of a phrase that opens no group is a leaf, if the scan needs an operand there. -/
theorem Derives.exists_leafAt {rule : Rule} {room : Nat} {tokens : List Token} {e : Expr}
    (h : Derives rule room tokens e) :
    ∀ {limit opened deep : Nat} {before : List Token} {token : Token} {after : List Token},
    room ≤ limit - opened → tokens = before ++ token :: after →
    Scan.walk limit (.needsOperand opened) before = some (.needsOperand deep) →
    token.isOpen = false → ∃ way, LeafAt rule room before token after e way := by
  induction h with
  | @number room leaf value hint hnum =>
    intro limit opened deep before token after _ htokens _ _
    obtain ⟨rfl, rfl, rfl⟩ : before = [] ∧ token = leaf ∧ after = [] := by
      cases before with
      | nil => simpa [eq_comm] using htokens
      | cons first before => simp at htokens
    exact ⟨[], .number hint hnum⟩
  | @group room first last tokens e ho hc hsum ih =>
    intro limit opened deep before token after hroom htokens hwalk hopen
    have hlt : opened < limit := by omega
    have hinside : room ≤ limit - (opened + 1) := by omega
    cases before with
    | nil =>
      -- the first token opens the group
      obtain ⟨rfl, -⟩ := List.cons.inj htokens
      simp [ho] at hopen
    | cons head before =>
      obtain ⟨rfl, hrest⟩ := List.cons.inj htokens
      rw [Scan.walk_of_goOn (Scan.step_of_isOpen ho hlt)] at hwalk
      rcases Scan.split_phrase hrest (hsum.walk_eq hinside) hwalk with
        ⟨between, hsplit, rfl⟩ | ⟨next, between, -, hlast, -⟩
      · obtain ⟨way, hleaf⟩ := ih hinside hsplit hwalk hopen
        exact ⟨way, hleaf.group ho hc⟩
      · simp at hlast
  | single hr _ ih =>
    intro limit opened deep before token after hroom htokens hwalk hopen
    obtain ⟨way, hleaf⟩ := ih hroom htokens hwalk hopen
    exact ⟨way, hleaf.single hr⟩
  | @binary rule tighter room op sign first second left right hr hop hs hl hright ihl ihr =>
    intro limit opened deep before token after hroom htokens hwalk hopen
    rcases Scan.split_phrase htokens (hl.walk_eq hroom) hwalk with
      ⟨between, hsplit, rfl⟩ | ⟨next, between, rfl, hrest, hover⟩
    · obtain ⟨way, hleaf⟩ := ihl hroom hsplit hwalk hopen
      exact ⟨.left :: way, hleaf.left hr hop hs hright⟩
    · obtain ⟨rfl, hsecond⟩ := List.cons.inj hrest
      rw [Scan.walk_of_goOn (Scan.step_of_isSign hs)] at hover
      obtain ⟨way, hleaf⟩ := ihr hroom hsecond hover hopen
      exact ⟨.right :: way, hleaf.right hr hop hs hl⟩

/-! ### The groups around and within -/

/-- A group in the place of an integer nests as deep as its tokens, and one more, from where it
stands. -/
theorem nesting_graft {before after inner : List Token} {token first last : Token} {room : Nat}
    {e : Expr} (hint : token.isInteger = true) (ho : first.isOpen = true) (hc : last.isClose = true)
    (h : Derives .sum room inner e) :
    nesting (before ++ first :: (inner ++ last :: after)) =
      max (nesting (before ++ token :: after)) (groupsOpen 0 before + 1 + nesting inner) := by
  have hstands := le_deepest (groupsOpen 0 before) after
  have hold : nesting (before ++ token :: after) =
      max (deepest 0 before) (deepest (groupsOpen 0 before) after) := by
    simp only [nesting, deepest_append, deepest, Token.groupsAfter_of_isInteger hint]
    omega
  have hgroup : deepest (groupsOpen 0 before) (first :: (inner ++ last :: after)) =
      max (groupsOpen 0 before + 1 + nesting inner) (deepest (groupsOpen 0 before) after) := by
    simp only [deepest, deepest_append, Token.groupsAfter_of_isOpen ho, h.groupsOpen_eq,
      Token.groupsAfter_of_isClose hc, h.deepest_eq (groupsOpen 0 before + 1), Nat.add_sub_cancel]
    omega
  calc nesting (before ++ first :: (inner ++ last :: after))
      = max (deepest 0 before) (deepest (groupsOpen 0 before) (first :: (inner ++ last :: after))) :=
        deepest_append _ 0 before
    _ = max (deepest 0 before)
          (max (groupsOpen 0 before + 1 + nesting inner) (deepest (groupsOpen 0 before) after)) := by
        rw [hgroup]
    _ = max (nesting (before ++ token :: after)) (groupsOpen 0 before + 1 + nesting inner) := by
        rw [hold]
        omega

/-- **Parentheses make an expression opaque.** In a parse of tokens without an end of input, let one
of them be taken as a leaf. It is the number at some place of the expression. If it is replaced by
an expression in parentheses, the tokens parse exactly under the limits that have room for the
groups of the old tokens, and for the groups open there, the new one and those in it; and the
expression is the old one with the new one at that place. Its value or error is that of the old one
with the value of the new one there, if that has a value. -/
theorem parse_graft {tokens : List Token} {file : String} {limit index opened : Nat} {s : Expr}
    (hends : ∀ token ∈ tokens, token.isEnd = false)
    (hs : (parse tokens file limit).result = .ok s)
    (hleaf : TakesLeaf tokens file limit index opened) :
    ∃ token way value, tokens[index]? = some token ∧ token.number = some value ∧
      s.part? way = some (.number value token.span) ∧
      ∀ (inner : List Token) (source : String) (bound : Nat) (e : Expr) (first last : Token),
        (∀ token ∈ inner, token.isEnd = false) → (parse inner source bound).result = .ok e →
        first.isOpen = true → last.isClose = true →
        (∀ name room tree,
          (parse (tokens.take index ++ first :: (inner ++ last :: tokens.drop (index + 1))) name
            room).result = .ok tree ↔
          (nesting tokens ≤ room ∧ opened + 1 + nesting inner ≤ room) ∧
            tree = .replace e way s) ∧
        ∀ v, e.evaluate = .ok v →
          (Expr.replace e way s).evaluate = (Expr.replace (.number v token.span) way s).evaluate := by
  obtain ⟨before, token, after, rfl, rfl, hopen, hwalk⟩ := (takesLeaf_iff hends hs).1 hleaf
  have hdepth : opened = groupsOpen 0 before := Scan.opened_of_walk hwalk
  have hderives := parse_sound hs
  rw [Token.takeWhile_eq_self hends] at hderives
  obtain ⟨way, hleafAt⟩ := hderives.exists_leafAt (Nat.le_refl (limit - 0)) rfl hwalk hopen
  obtain ⟨value, hnum, hpart⟩ := hleafAt.part
  refine ⟨token, way, value, by simp, hnum, hpart, ?_⟩
  intro inner source bound e first last hinner he ho hc
  have hsum := parse_sound he
  rw [Token.takeWhile_eq_self hinner] at hsum
  have htake : (before ++ token :: after).take before.length = before := by simp
  have hdrop : (before ++ token :: after).drop (before.length + 1) = after := by simp
  rw [htake, hdrop]
  refine ⟨fun name room tree => ?_, fun v hv => Expr.evaluate_replace (hv.trans ?_) way s⟩
  · have hwhole := hleafAt.graft (bound + 1) _ e (.group ho hc hsum)
    simp only [List.cons_append, List.append_assoc, List.nil_append] at hwhole
    rw [hwhole.parse_eq_ok_iff, nesting_graft hleafAt.isInteger ho hc hsum, hdepth, Nat.max_le]
  · rw [Expr.evaluate_eq_value]
    rfl

/-- The token of a lexeme of one character. -/
def charToken (offset : Nat) (c : Char) : Token := lexemeToken "input.txt" offset [c]

/-- In `(1) * 2` the integer in the group is replaced by `(3 + 4)`, which needs room for a second
group. -/
theorem parse_graft_in_group :
    ∃ s e way,
      (parse [charToken 0 '(', charToken 1 '1', charToken 2 ')', charToken 4 '*', charToken 6 '2']
        "input.txt" 1).result = .ok s ∧
      TakesLeaf [charToken 0 '(', charToken 1 '1', charToken 2 ')', charToken 4 '*',
        charToken 6 '2'] "input.txt" 1 1 1 ∧
      (parse [charToken 0 '3', charToken 2 '+', charToken 4 '4'] "input.txt" 0).result = .ok e ∧
      ∀ room tree, (parse [charToken 0 '(', charToken 7 '(', charToken 0 '3', charToken 2 '+',
          charToken 4 '4', charToken 8 ')', charToken 2 ')', charToken 4 '*', charToken 6 '2']
          "input.txt" room).result = .ok tree ↔
        (1 ≤ room ∧ 2 ≤ room) ∧ tree = .replace e way s := by
  have hleaf : TakesLeaf [charToken 0 '(', charToken 1 '1', charToken 2 ')', charToken 4 '*',
      charToken 6 '2'] "input.txt" 1 1 1 := by
    refine ⟨_, .head (.first _ rfl) (.head (.first _ rfl) (.head (.atom _) (.head (.inside ?_
      ((Parser.openGroup_eq ?_).trans (if_neg (by decide)))) (.head (.first _ rfl)
      (.head (.first _ rfl) (.head (.atom _) .refl)))))), rfl, rfl, ?_⟩ <;> decide +kernel
  have hs : (parse [charToken 0 '(', charToken 1 '1', charToken 2 ')', charToken 4 '*',
      charToken 6 '2'] "input.txt" 1).result = .ok (.binary .mul
        (.number 1 (Span.over 1 1 "input.txt")) (.number 2 (Span.over 6 1 "input.txt"))
        (Span.over 4 1 "input.txt")) := by
    decide +kernel
  have he : (parse [charToken 0 '3', charToken 2 '+', charToken 4 '4'] "input.txt" 0).result =
      .ok (.binary .add (.number 3 (Span.over 0 1 "input.txt"))
        (.number 4 (Span.over 4 1 "input.txt")) (Span.over 2 1 "input.txt")) := by
    decide +kernel
  obtain ⟨_, way, _, -, -, -, hgraft⟩ := parse_graft (by decide) hs hleaf
  obtain ⟨hparse, -⟩ := hgraft _ "input.txt" 0 _ (charToken 7 '(') (charToken 8 ')') (by decide) he
    (by decide) (by decide)
  have hdeep : nesting [charToken 0 '(', charToken 1 '1', charToken 2 ')', charToken 4 '*',
      charToken 6 '2'] = 1 ∧ nesting [charToken 0 '3', charToken 2 '+', charToken 4 '4'] = 0 := by
    decide +kernel
  refine ⟨_, _, way, hs, hleaf, he, fun room tree => ?_⟩
  have hroom := hparse "input.txt" room tree
  rw [hdeep.1, hdeep.2] at hroom
  exact hroom

end Calculator
