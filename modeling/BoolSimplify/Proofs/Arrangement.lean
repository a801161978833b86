/-
The groups that a run leaves behind.

Rules see a group from inside just as they see its contents alone.  Hence a group
whose contents are irreducible stays as it is until a rule takes it as a whole.
The other groups are those that distribution makes, and of these only a few forms
exist.  The main statement says that when nothing may be replaced any more, no
group holds a single operand, and what it holds is irreducible on its own.
-/

import BoolSimplify.Proofs.Catalog
import Mathlib.Data.List.Basic

namespace BoolSimplify

/-! ### Rules within groups -/

theorem Strength.admits_in_group (strength : Strength) (outer left right after : List Token) :
    strength.admits (outer ++ .opening :: left).getLast? (right ++ .closing :: after).head? =
      strength.admits left.getLast? right.head? := by
  have previous : (outer ++ .opening :: left).getLast? = some (left.getLast?.getD .opening) := by
    rw [List.getLast?_append, List.getLast?_cons, Option.some_or]
  have next : (right ++ .closing :: after).head? = some (right.head?.getD .closing) := by
    cases right <;> rfl
  rw [previous, next]
  cases left.getLast? <;> cases right.head? <;> cases strength <;> rfl

namespace Rule

theorem redex_in_group (rule : Rule) (outer left tokens right after : List Token)
    (bindings : Bindings) :
    rule.redex? (outer ++ .opening :: left).getLast? (tokens ++ .closing :: after) =
        some ⟨bindings, right ++ .closing :: after⟩ ↔
      rule.redex? left.getLast? tokens = some ⟨bindings, right⟩ := by
  rw [redex_eq_some_iff, redex_eq_some_iff, Strength.admits_in_group]
  exact and_congr_left' (Match.extendAll_push_iff ⟨.empty, tokens⟩ rule.pattern .closing after rfl
    bindings right)

end Rule

theorem Irreducible.of_group {rules : List Rule} {outer inner after : List Token}
    (irreducible : Irreducible rules (outer ++ .opening :: (inner ++ .closing :: after))) :
    Irreducible rules inner := by
  intro rule member left tokens split
  cases redex : rule.redex? left.getLast? tokens with
  | none => rfl
  | some found =>
      have inGroup := (rule.redex_in_group outer left tokens found.rest after found.bindings).mpr
        redex
      rw [irreducible rule member (outer ++ .opening :: left) (tokens ++ .closing :: after) (by
        rw [← split]
        simp only [List.append_assoc, List.cons_append])] at inGroup
      cases inGroup

theorem Irreducible.not_replaces {rules : List Rule} {first second : List Token}
    (irreducible : Irreducible rules first) {rule : Rule} (member : rule ∈ rules) :
    ¬rule.Replaces first second := by
  rintro ⟨before, tokens, found, redex⟩
  rw [irreducible rule member before tokens rfl] at redex
  cases redex

/-! ### Where groups come from -/

/-- Where a group `( inner )` of the tokens behind a replacement comes from. -/
inductive Rule.GroupOrigin (rule : Rule) (first before : List Token) (bindings : Bindings)
    (outer inner outerAfter : List Token) : Prop where
  | behind (between : List Token)
      (outerEq : outer = before ++ (bindings.fill rule.replacement ++ between))
      (firstEq : first = (before ++ (bindings.fill rule.pattern ++ between)) ++
        .opening :: (inner ++ .closing :: outerAfter))
  | ahead (between later : List Token)
      (beforeEq : before = outer ++ .opening :: (inner ++ .closing :: between))
      (firstEq : first = outer ++ .opening :: (inner ++ .closing :: later))
  /-- The replacement was made inside, where the rule sees the interior alone as well. -/
  | around (earlier : List Token) (balanced : Balanced earlier)
      (firstEq : first = outer ++ .opening :: (earlier ++ .closing :: outerAfter))
      (replaced : rule.Replaces earlier inner)
  | within (left right : List Token)
      (madeEq : bindings.fill rule.replacement = left ++ .opening :: (inner ++ .closing :: right))

theorem Rule.WritesOut.groupOrigin {rule : Rule} {first second before after : List Token}
    {bindings : Bindings} (written : rule.WritesOut first second before after bindings)
    (patternBalanced : Balanced rule.pattern) (replacementBalanced : Balanced rule.replacement)
    {outer inner outerAfter : List Token}
    (split : second = outer ++ .opening :: (inner ++ .closing :: outerAfter))
    (balanced : Balanced inner) : rule.GroupOrigin first before bindings outer inner outerAfter := by
  have consumedBalanced : Balanced (bindings.fill rule.pattern) :=
    (bindings.unmatched_fill written.plain _).trans patternBalanced
  have madeBalanced : Balanced (bindings.fill rule.replacement) :=
    (bindings.unmatched_fill written.plain _).trans replacementBalanced
  have firstEq := written.first_eq
  have redex := written.redex
  rw [written.second_eq] at split
  cases madeBalanced.groupPlace balanced split with
  | behind between outerEq afterEq =>
      refine .behind between outerEq ?_
      rw [firstEq, afterEq]
      simp only [List.append_assoc]
  | ahead between beforeEq outerAfterEq =>
      refine .ahead between (between ++ (bindings.fill rule.pattern ++ after)) beforeEq ?_
      rw [firstEq, beforeEq]
      simp only [List.append_assoc, List.cons_append]
  | around left right innerEq beforeEq afterEq =>
      subst innerEq beforeEq afterEq
      have sameParentheses := Balanced.unmatched_replace
        (consumedBalanced.trans madeBalanced.symm) left right
      rw [← List.append_assoc] at redex
      have alone := (rule.redex_in_group outer left _ right outerAfter bindings).mp redex
      refine .around _ (sameParentheses.trans balanced) ?_ (.intro left _ ⟨bindings, right⟩ alone)
      rw [firstEq]
      simp only [List.append_assoc, List.cons_append]
  | within left right madeEq _ _ => exact .within left right madeEq

/-! ### The groups of a list -/

/-- Every group in `tokens` has contents of a kind. -/
def EachGroup (kind : List Token → Prop) (tokens : List Token) : Prop :=
  ∀ before inner after, tokens = before ++ .opening :: (inner ++ .closing :: after) →
    Balanced inner → kind inner

namespace EachGroup

variable {kind : List Token → Prop}

theorem of_infix (left middle right : List Token)
    (each : EachGroup kind (left ++ (middle ++ right))) : EachGroup kind middle := by
  intro before inner after split balanced
  apply each (left ++ before) inner (after ++ right) _ balanced
  rw [split]
  simp only [List.append_assoc, List.cons_append]

theorem mono {other : List Token → Prop} (weaker : ∀ inner, kind inner → other inner)
    {tokens : List Token} (each : EachGroup kind tokens) : EachGroup other tokens :=
  fun before inner after split balanced => weaker inner (each before inner after split balanced)

theorem of_no_opening {tokens : List Token} (noOpening : .opening ∉ tokens) :
    EachGroup kind tokens := by
  intro before inner after split balanced
  rw [split] at noOpening
  exact absurd (List.mem_append_right _ List.mem_cons_self) noOpening

theorem fill_of_no_opening {bindings : Bindings}
    (plain : ∀ token ∈ bindings.run, token.isParenthesis = false) {elements : List Element}
    (noOpening : .opening ∉ elements) : EachGroup kind (bindings.fill elements) := by
  apply of_no_opening
  intro opens
  rw [← List.count_pos_iff, bindings.count_opening_fill plain, List.count_pos_iff] at opens
  exact noOpening opens

theorem of_one_group {front inner back : List Token} (holds : kind inner)
    (noOpening : .opening ∉ front ++ inner ++ back) (noClosing : .closing ∉ inner ++ back) :
    EachGroup kind (front ++ .opening :: (inner ++ .closing :: back)) := by
  intro before other after split balanced
  simp only [List.mem_append, not_or] at noOpening noClosing
  have behindOpening : .opening ∉ inner ++ .closing :: back := by
    simp only [List.mem_append, List.mem_cons, noOpening, reduceCtorEq, or_self,
      not_false_eq_true]
  obtain ⟨_, _, sameBehind⟩ :=
    (List.append_cons_inj_of_notMem noOpening.1.1 behindOpening).mp split
  obtain ⟨sameInner, _, _⟩ :=
    (List.append_cons_inj_of_notMem noClosing.1 noClosing.2).mp sameBehind
  rw [← sameInner]
  exact holds

theorem append {left right : List Token} (leftBalanced : Balanced left)
    (leftEach : EachGroup kind left) (rightEach : EachGroup kind right) :
    EachGroup kind (left ++ right) := by
  intro before inner after split balanced
  rw [← List.nil_append (left ++ right)] at split
  cases leftBalanced.groupPlace balanced split with
  | behind between outerBeforeEq afterEq => exact rightEach between inner after afterEq balanced
  | ahead between beforeEq outerAfterEq =>
      cases List.append_eq_nil_iff.mp beforeEq.symm |>.2
  | around start stop innerEq beforeEq afterEq =>
      cases List.append_eq_nil_iff.mp beforeEq.symm |>.2
  | within start stop partEq outerBeforeEq outerAfterEq =>
      exact leftEach start inner stop partEq balanced

theorem group {inner : List Token} (innerBalanced : Balanced inner) (holds : kind inner)
    (innerEach : EachGroup kind inner) : EachGroup kind (.opening :: inner ++ [.closing]) := by
  intro before other after split balanced
  change [.opening] ++ (inner ++ [.closing]) = _ at split
  cases innerBalanced.groupPlace balanced split with
  | behind between outerBeforeEq afterEq =>
      have total := congrArg List.length afterEq
      simp only [List.length_append, List.length_cons, List.length_nil] at total
      omega
  | ahead between beforeEq outerAfterEq =>
      have total := congrArg List.length beforeEq
      simp only [List.length_append, List.length_cons, List.length_nil] at total
      omega
  | around start stop innerEq beforeEq afterEq =>
      have startTotal := congrArg List.length beforeEq
      have stopTotal := congrArg List.length afterEq
      simp only [List.length_append, List.length_cons, List.length_nil] at startTotal stopTotal
      have noStart : start = [] := List.length_eq_zero_iff.mp (by omega)
      have noStop : stop = [] := List.length_eq_zero_iff.mp (by omega)
      rw [innerEq, noStart, noStop, List.nil_append, List.append_nil]
      exact holds
  | within start stop partEq outerBeforeEq outerAfterEq =>
      exact innerEach start other stop partEq balanced

/-- A replacement keeps what all groups hold when it does so within a group and for
the groups that it writes. -/
theorem replace {rule : Rule} {first second before after : List Token} {bindings : Bindings}
    (written : rule.WritesOut first second before after bindings)
    (patternBalanced : Balanced rule.pattern) (replacementBalanced : Balanced rule.replacement)
    (closed : ∀ left right, rule.Replaces left right → kind left → kind right)
    (made : EachGroup kind (bindings.fill rule.replacement)) (each : EachGroup kind first) :
    EachGroup kind second := by
  intro outer inner outerAfter split balanced
  cases written.groupOrigin patternBalanced replacementBalanced split balanced with
  | behind between outerEq firstEq => exact each _ inner outerAfter firstEq balanced
  | ahead between later beforeEq firstEq => exact each outer inner later firstEq balanced
  | around earlier earlierBalanced firstEq replaced =>
      exact closed _ _ replaced (each outer earlier outerAfter firstEq earlierBalanced)
  | within left right madeEq => exact made left inner right madeEq balanced

end EachGroup

/-! ### Groups between replacements by the catalog -/

/-- What a group holds that a run has put back, or that distribution has made since. -/
inductive GroupContents : List Token → Prop where
  | settled {inner : List Token} (irreducible : Irreducible catalog inner)
      (notOperand : isOperand inner = false) : GroupContents inner
  | disjunction (left right : Letter) : GroupContents [.letter left, .disj, .letter right]
  | letter (letter : Letter) : GroupContents [.letter letter]

namespace Rule

def reducts (rule : Rule) (tokens : List Token) : List (List Token) :=
  (List.range (tokens.length + 1)).filterMap fun place =>
    (rule.redex? (tokens.take place).getLast? (tokens.drop place)).map fun found =>
      tokens.take place ++ (found.bindings.fill rule.replacement ++ found.rest)

theorem Replaces.mem_reducts {rule : Rule} {first second : List Token}
    (replaced : rule.Replaces first second) : second ∈ rule.reducts first := by
  cases replaced with
  | intro before tokens found redex =>
      apply List.mem_filterMap.mpr
      refine ⟨before.length, List.mem_range.mpr ?_, ?_⟩
      · rw [List.length_append]
        omega
      · rw [List.take_left, List.drop_left, redex]
        rfl

end Rule

theorem reducts_disjunction (left right : Letter) :
    ∀ rule ∈ catalog, ∀ reduct ∈ rule.reducts [.letter left, .disj, .letter right],
      reduct = [.letter left] := by
  cases left <;> cases right <;> decide +kernel

theorem reducts_letter (letter : Letter) :
    ∀ rule ∈ catalog, rule.reducts [.letter letter] = [] := by
  cases letter <;> decide +kernel

theorem GroupContents.replaces {rule : Rule} (member : rule ∈ catalog) {first second : List Token}
    (replaced : rule.Replaces first second) (contents : GroupContents first) :
    GroupContents second := by
  cases contents with
  | settled irreducible notOperand => exact absurd replaced (irreducible.not_replaces member)
  | disjunction left right =>
      rw [reducts_disjunction left right rule member second replaced.mem_reducts]
      exact .letter left
  | letter letter =>
      have reduct := replaced.mem_reducts
      rw [reducts_letter letter rule member] at reduct
      cases reduct

open Element (x y z) in
theorem replacement_groups :
    ∀ rule ∈ catalog, .opening ∉ rule.replacement ∨
      rule.replacement = [x, .conj, .opening, y, .disj, z, .closing] ∨ rule.DropsParentheses := by
  decide +kernel

theorem balanced_sides : ∀ rule ∈ catalog, Balanced rule.pattern ∧ Balanced rule.replacement := by
  decide +kernel

theorem EachGroup.of_distribution {kind : List Token → Prop}
    (disjunction : ∀ left right : Letter, kind [.letter left, .disj, .letter right]) {rule : Rule}
    {first second before after : List Token} {bindings : Bindings}
    (written : rule.WritesOut first second before after bindings) (bound : rule.SlotsBound)
    (distributed : rule.replacement = [.x, .conj, .opening, .y, .disj, .z, .closing]) :
    EachGroup kind (bindings.fill rule.replacement) := by
  have letterOf (slot : Slot) (occurs : .atom (.slot slot) ∈ rule.replacement) :
      ∃ letter, bindings.letters slot = some letter := written.bound slot (bound slot occurs)
  rw [distributed] at letterOf ⊢
  obtain ⟨common, isCommon⟩ := letterOf .x (by decide)
  obtain ⟨left, isLeft⟩ := letterOf .y (by decide)
  obtain ⟨right, isRight⟩ := letterOf .z (by decide)
  have filled : bindings.fill [.x, .conj, .opening, .y, .disj, .z, .closing] =
      [.letter common, .conj] ++ .opening ::
        ([.letter left, .disj, .letter right] ++ .closing :: []) := by
    simp only [Bindings.fill, List.flatMap_cons, List.flatMap_nil, Symbol.expand, Bindings.image,
      isCommon, isLeft, isRight]
    rfl
  rw [filled]
  refine EachGroup.of_one_group (disjunction left right) ?_ ?_
  · simp
  · simp

theorem EachGroup.of_dropped {rule : Rule} {first second before after : List Token}
    {bindings : Bindings} (written : rule.WritesOut first second before after bindings)
    (drops : rule.DropsParentheses) (each : EachGroup GroupContents first) :
    EachGroup GroupContents (bindings.fill rule.replacement) := by
  have noParenthesis (mark : Token) (isMark : mark.isParenthesis = true) :
      mark ∉ bindings.run := by
    intro inRun
    rw [written.plain mark inRun] at isMark
    cases isMark
  have held : GroupContents bindings.run := by
    apply each (before ++ [.opening]) bindings.run (.closing :: after) _
      (balanced_of_plain _ written.plain)
    rw [written.first_eq, drops.pattern_fill]
    simp only [List.append_assoc, List.cons_append, List.nil_append]
  rw [drops.replacement_fill]
  change EachGroup GroupContents ([] ++ .opening :: (bindings.run ++ .closing :: []))
  refine EachGroup.of_one_group held ?_ ?_
  · rw [List.nil_append, List.append_nil]
    exact noParenthesis .opening rfl
  · rw [List.append_nil]
    exact noParenthesis .closing rfl

theorem EachGroup.made {rule : Rule} (member : rule ∈ catalog)
    {first second before after : List Token} {bindings : Bindings}
    (written : rule.WritesOut first second before after bindings)
    (each : EachGroup GroupContents first) :
    EachGroup GroupContents (bindings.fill rule.replacement) := by
  rcases replacement_groups rule member with noOpening | distributed | drops
  · exact EachGroup.fill_of_no_opening written.plain noOpening
  · exact EachGroup.of_distribution .disjunction written (shrinks_of_catalog rule member).bound
      distributed
  · exact EachGroup.of_dropped written drops each

theorem EachGroup.replaces {rule : Rule} (member : rule ∈ catalog) {first second : List Token}
    (replaced : rule.Replaces first second) (each : EachGroup GroupContents first) :
    EachGroup GroupContents second := by
  have shrinks := shrinks_of_catalog rule member
  obtain ⟨before, after, bindings, written⟩ := replaced.writesOut shrinks.oneRun
  obtain ⟨patternBalanced, replacementBalanced⟩ := balanced_sides rule member
  have closed (left right : List Token) (step : rule.Replaces left right)
      (contents : GroupContents left) : GroupContents right := contents.replaces member step
  exact EachGroup.replace written patternBalanced replacementBalanced closed
    (each.made member written) each

end BoolSimplify
