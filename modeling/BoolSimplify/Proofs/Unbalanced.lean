/-
Parentheses without a match.

The engine notices an unmatched parenthesis while it simplifies, so that a budget may
end before, and the tokens around the parenthesis are no longer those of the input.
The stack of open groups keeps the positions of the input nevertheless.  The main
statement says that the parenthesis that is reported is the right one, that the whole
input is reported with it, and that nothing is reported on balanced tokens.
-/

import BoolSimplify.Proofs.Convergence
import BoolSimplify.Proofs.Recursion
import Mathlib.Algebra.GroupWithZero.Nat

namespace BoolSimplify

/-! ### The parenthesis that offends -/

/-- The token at `position` is a `)`, and up to there more groups are closed than were
opened before. -/
def StrayClosing (tokens : List Token) (position : Nat) : Prop :=
  tokens[position]? = some .closing ∧
    (tokens.take position).count .opening < (tokens.take (position + 1)).count .closing

/-- The token at `position` is a `(` whose group is never closed. -/
def UnclosedOpening (tokens : List Token) (position : Nat) : Prop :=
  tokens[position]? = some .opening ∧ matchingClose tokens position = none

/-- The first stray `)` offends.  If there is none, the last unclosed `(` does. -/
def Offends (tokens : List Token) (position : Nat) : Prop :=
  (StrayClosing tokens position ∧ ∀ earlier < position, ¬StrayClosing tokens earlier) ∨
    (∀ other, ¬StrayClosing tokens other) ∧ UnclosedOpening tokens position ∧
      ∀ later > position, ¬UnclosedOpening tokens later

theorem not_strayClosing {tokens : List Token} {position : Nat}
    (matched : (unmatched (tokens.take (position + 1))).closings = 0) :
    ¬StrayClosing tokens position := by
  rintro ⟨isClosing, more⟩
  have counted := count_unmatched (tokens.take (position + 1))
  have sameOpenings : (tokens.take (position + 1)).count .opening =
      (tokens.take position).count .opening := by
    rw [List.take_add_one, isClosing, List.count_append]
    rfl
  omega

theorem unclosedOpening_iff (tokens : List Token) (position : Nat) :
    UnclosedOpening tokens position ↔
      ∃ before inner, tokens = before ++ .opening :: inner ∧ before.length = position ∧
        (unmatched inner).closings = 0 := by
  have close (before inner : List Token) :
      matchingClose (before ++ .opening :: inner) before.length = none ↔
        (unmatched inner).closings = 0 := by
    rw [matchingClose, List.drop_left]
    exact Option.map_eq_none_iff.trans
      ((closeFrom_eq_none_iff 0 inner).trans Nat.le_zero)
  constructor
  · rintro ⟨isOpening, neverClosed⟩
    obtain ⟨within, opens⟩ := List.getElem?_eq_some_iff.mp isOpening
    have split : tokens = tokens.take position ++ .opening :: tokens.drop (position + 1) := by
      rw [← opens, List.getElem_cons_drop, List.take_append_drop]
    have atPosition : (tokens.take position).length = position :=
      List.length_take_of_le (Nat.le_of_lt within)
    have closed := close (tokens.take position) (tokens.drop (position + 1))
    rw [← split, atPosition] at closed
    exact ⟨_, _, split, atPosition, closed.mp neverClosed⟩
  · rintro ⟨before, inner, rfl, rfl, matched⟩
    refine ⟨?_, (close before inner).mpr matched⟩
    rw [List.getElem?_append_right (Nat.le_refl _), Nat.sub_self]
    rfl

theorem Balanced.closings_ne_zero {before inner : List Token}
    (balanced : Balanced (before ++ .opening :: inner)) : (unmatched inner).closings ≠ 0 := by
  intro matched
  have leftOver := balanced.openings_of_append
  rw [unmatched_opening, Unmatched.join, matched] at leftOver
  cases leftOver

theorem offends_of_closing (before rest : List Token) (balanced : Balanced before) :
    Offends (before ++ .closing :: rest) before.length := by
  refine .inl ⟨⟨?_, ?_⟩, ?_⟩
  · rw [List.getElem?_append_right (Nat.le_refl _), Nat.sub_self]
    rfl
  · have counted := count_unmatched before
    rw [balanced] at counted
    rw [List.take_left, List.take_length_add_append, List.count_append]
    change _ < before.count .closing + 1
    simp only [Unmatched.zero] at counted
    omega
  · intro earlier isEarlier
    apply not_strayClosing
    rw [List.take_append_of_le_length isEarlier]
    have fewer := closings_take_le before (earlier + 1)
    rw [balanced] at fewer
    exact Nat.le_zero.mp fewer

theorem offends_of_opening (before inner : List Token)
    (matched : (unmatched before).closings = 0) (balanced : Balanced inner) :
    Offends (before ++ .opening :: inner) before.length := by
  have noStray : (unmatched (before ++ .opening :: inner)).closings = 0 := by
    rw [unmatched_append, unmatched_opening, balanced]
    simp [Unmatched.join, Unmatched.zero, matched]
  refine .inr ⟨?_, ?_, ?_⟩
  · intro other
    have fewer := closings_take_le (before ++ .opening :: inner) (other + 1)
    exact not_strayClosing (by omega)
  · rw [unclosedOpening_iff]
    exact ⟨before, inner, rfl, rfl, by rw [balanced]; rfl⟩
  · intro later isLater unclosed
    obtain ⟨front, back, split, rfl, backMatched⟩ := (unclosedOpening_iff _ _).mp unclosed
    rcases List.append_eq_append_iff.mp split with ⟨opened, rfl, innerEq⟩ | ⟨opened, rfl, _⟩
    · cases opened with
      | nil => simp at isLater
      | cons symbol opened =>
          obtain ⟨_, rfl⟩ := List.cons.inj innerEq
          exact balanced.closings_ne_zero backMatched
    · rw [List.length_append] at isLater
      omega

theorem Offends.not_balanced {tokens : List Token} {position : Nat}
    (offends : Offends tokens position) : ¬Balanced tokens := by
  intro balanced
  rcases offends with ⟨stray, _⟩ | ⟨_, unclosed, _⟩
  · have fewer := closings_take_le tokens (position + 1)
    rw [balanced] at fewer
    exact not_strayClosing (Nat.le_zero.mp fewer) stray
  · obtain ⟨before, inner, rfl, _, matched⟩ := (unclosedOpening_iff _ _).mp unclosed
    exact balanced.closings_ne_zero matched

/-! ### The stack of open groups -/

/-- The positions of the `(` that nothing in `before` closes, the innermost first.  Every
`)` in it has a match. -/
inductive OpenAt : (before : List Token) → (positions : List Nat) → Prop where
  | balanced {before : List Token} (balanced : Balanced before) : OpenAt before []
  | opening {before inner : List Token} {positions : List Nat} (around : OpenAt before positions)
      (balanced : Balanced inner) :
      OpenAt (before ++ .opening :: inner) (before.length :: positions)

namespace OpenAt

variable {before : List Token} {positions : List Nat}

theorem append {after : List Token} (opened : OpenAt before positions)
    (afterBalanced : Balanced after) : OpenAt (before ++ after) positions := by
  cases opened with
  | balanced beforeBalanced => exact .balanced (beforeBalanced.append afterBalanced)
  | opening around innerBalanced =>
      rw [List.append_assoc, List.cons_append]
      exact .opening around (innerBalanced.append afterBalanced)

theorem close {position : Nat} (opened : OpenAt before (position :: positions)) :
    OpenAt (before ++ [.closing]) positions := by
  cases opened with
  | opening around innerBalanced =>
      rw [List.append_assoc]
      exact around.append innerBalanced.group

theorem closings_eq (opened : OpenAt before positions) : (unmatched before).closings = 0 := by
  induction opened with
  | balanced beforeBalanced => rw [beforeBalanced]; rfl
  | opening around innerBalanced ih =>
      rw [unmatched_append, unmatched_opening, innerBalanced]
      simp [Unmatched.join, Unmatched.zero, ih]

end OpenAt

/-! ### Causes of failure -/

def Outcome.FailsForCause {Result : Type} (outcome : Outcome Result) (maxPasses : Nat)
    (input : List Token) : Prop :=
  ∀ failure, outcome.result = .error failure →
    (maxPasses ≤ outcome.stats.passes ∧
        ∃ left, failure = .nonConvergent outcome.stats.passes left) ∨
      ∃ position, failure = .unbalanced position input ∧ Offends input position

namespace Outcome.FailsForCause

variable {First Second : Type} {maxPasses : Nat} {input : List Token}

theorem of_offends {outcome : Outcome First} {position : Nat}
    (failed : outcome.result = .error (.unbalanced position input))
    (offends : Offends input position) : outcome.FailsForCause maxPasses input := by
  intro failure same
  rw [failed] at same
  exact .inr ⟨position, (Except.error.inj same).symm, offends⟩

theorem andThen {outcome : Outcome First} {next : First → Stats → Outcome Second}
    (fails : outcome.FailsByBudget maxPasses)
    (later : ∀ value stats, (next value stats).FailsForCause maxPasses input) :
    (outcome.andThen next).FailsForCause maxPasses input := by
  intro failure failed
  unfold Outcome.andThen at failed ⊢
  cases ended : outcome.result with
  | ok value =>
      rw [ended] at failed
      exact later value outcome.stats failure failed
  | error cause =>
      rw [ended] at failed
      rw [← Except.error.inj failed]
      exact .inl (fails cause ended)

end Outcome.FailsForCause

namespace Engine

variable (engine : Engine)

/-- The stack tells where the groups were opened that are still open, so that whatever
parenthesis has no match is reported by its position in the input. -/
theorem simplifyFrom_failsForCause (input before tokens collected : List Token)
    (groups : List OpenGroup) (stats : Stats) (split : input = before ++ tokens)
    (opened : OpenAt before (groups.map OpenGroup.position)) :
    (engine.simplifyFrom input before.length tokens collected groups stats).FailsForCause
      engine.maxPasses input := by
  induction tokens generalizing before collected groups stats with
  | nil =>
      cases groups with
      | nil =>
          intro failure failed
          exact .inl (engine.fixedPoint_failsByBudget collected.reverse stats failure failed)
      | cons group groups =>
          rw [List.append_nil] at split
          rw [List.map_cons] at opened
          generalize position : group.position = start at opened
          cases opened with
          | opening around innerBalanced =>
              have offends := offends_of_opening _ _ around.closings_eq innerBalanced
              rw [← split, ← position] at offends
              exact .of_offends rfl offends
  | cons token rest ih =>
      have onward : input = before ++ [token] ++ rest := by
        rw [split, List.append_assoc, List.singleton_append]
      have oneFurther : before.length + 1 = (before ++ [token]).length := by
        rw [List.length_append, List.length_singleton]
      rcases token.opening_or_closing_or_plain with rfl | rfl | plain
      · rw [simplifyFrom, oneFurther]
        exact ih _ _ _ _ onward (.opening opened .nil)
      · cases groups with
        | nil =>
            cases opened with
            | balanced beforeBalanced =>
                have offends := offends_of_closing before rest beforeBalanced
                rw [← split] at offends
                exact .of_offends rfl offends
        | cons group groups =>
            rw [simplifyFrom, oneFurther]
            refine .andThen (engine.fixedPoint_failsByBudget collected.reverse stats) ?_
            exact fun interior stats => ih _ _ groups _ onward opened.close
      · rw [engine.simplifyFrom_plain _ _ _ _ _ _ _ plain, oneFurther]
        exact ih _ _ _ _ onward (opened.append (Balanced.nil.cons plain))

theorem simplify_failsForCause (tokens : List Token) (stats : Stats) :
    (engine.simplify tokens stats).FailsForCause engine.maxPasses tokens :=
  engine.simplifyFrom_failsForCause tokens [] tokens [] [] stats rfl (.balanced .nil)

/-! ### Enough passes for any tokens -/

def pendingWeight (collected : List Token) (groups : List OpenGroup) : Nat :=
  weight collected + (groups.map fun group => weight group.around + 1).sum

/-- Like balanced tokens, all others pay for the passes that are made until the
parenthesis without a match is found. -/
theorem simplifyFrom_converges (decreases : Decreases weight engine.rules)
    (input tokens collected : List Token) (position : Nat) (groups : List OpenGroup)
    (stats : Stats)
    (enough : stats.passes + pendingWeight collected groups + tokens.length < engine.maxPasses)
    (passes : Nat) (left : List Token) :
    (engine.simplifyFrom input position tokens collected groups stats).result ≠
      .error (.nonConvergent passes left) := by
  induction tokens generalizing position collected groups stats with
  | nil =>
      cases groups with
      | nil =>
          have light := weight_reverse collected
          simp only [pendingWeight, List.map_nil, List.sum_nil, List.length_nil] at enough
          obtain ⟨reached, succeeded, _⟩ :=
            engine.fixedPoint_converges decreases collected.reverse stats (by omega)
          rw [simplifyFrom, succeeded]
          intro failed
          cases failed
      | cons group groups => simp [simplifyFrom]
  | cons token rest ih =>
      rw [List.length_cons] at enough
      rcases token.opening_or_closing_or_plain with rfl | rfl | plain
      · apply ih
        simp only [pendingWeight, List.map_cons, List.sum_cons, weight] at enough ⊢
        omega
      · cases groups with
        | nil => simp [simplifyFrom]
        | cons group groups =>
            simp only [pendingWeight, List.map_cons, List.sum_cons] at enough
            have light := weight_reverse collected
            obtain ⟨interior, reached, paid⟩ :=
              engine.fixedPoint_converges decreases collected.reverse stats (by omega)
            have operandLight := weight_asOperand_le interior
            rw [simplifyFrom, Outcome.andThen, reached]
            refine ih ((asOperand interior).reverse ++ group.around) _ groups _ ?_
            simp only [pendingWeight, weight_append, weight_reverse, Stats.countGroup_passes]
            omega
      · rw [engine.simplifyFrom_plain _ _ _ _ _ _ _ plain]
        apply ih
        have light := token.weight_le_one
        simp only [pendingWeight, weight] at enough ⊢
        omega

theorem simplify_converges_or_reports (decreases : Decreases weight engine.rules)
    (tokens : List Token) (enough : tokens.length + 1 ≤ engine.maxPasses) :
    (∃ result, (engine.simplify tokens .zero).result = .ok result) ∨
      ∃ position, (engine.simplify tokens .zero).result = .error (.unbalanced position tokens) ∧
        Offends tokens position := by
  cases ended : (engine.simplify tokens .zero).result with
  | ok result => exact .inl ⟨result, rfl⟩
  | error failure =>
      rcases engine.simplify_failsForCause tokens .zero failure ended with
        ⟨_, left, rfl⟩ | ⟨position, rfl, offends⟩
      · have noPasses := Stats.zero_passes
        refine absurd ended (engine.simplifyFrom_converges decreases tokens tokens [] 0 [] .zero ?_
          _ left)
        simp only [pendingWeight, weight, List.map_nil, List.sum_nil]
        omega
      · exact .inr ⟨position, rfl, offends⟩

/-- An unmatched parenthesis is reported just on tokens that are not balanced, by its
position in the input and with the text of the whole input.  With the catalog, a
budget that depends on the number of tokens only is enough to find it. -/
theorem simplify_reports_unbalanced (tokens : List Token) :
    (Balanced tokens → ∀ (stats : Stats) (position : Nat) (input : List Token),
      (engine.simplify tokens stats).result ≠ .error (.unbalanced position input)) ∧
    (¬Balanced tokens → ∀ stats : Stats,
      (∃ passes left, (engine.simplify tokens stats).result =
          .error (.nonConvergent passes left)) ∨
        ∃ position, (engine.simplify tokens stats).result =
            .error (.unbalanced position tokens) ∧
          (Failure.unbalanced position tokens).expressionText = render tokens ∧
          Offends tokens position) ∧
    (¬Balanced tokens → ∀ maxPasses, tokens.length + 1 ≤ maxPasses →
      ∃ position, ((Simplifier.mk maxPasses).simplifyTokens tokens).result =
          .error (.unbalanced position tokens) ∧
        (Failure.unbalanced position tokens).expressionText = render tokens ∧
        Offends tokens position) := by
  refine ⟨?_, ?_, ?_⟩
  · intro balanced stats position input failed
    rcases engine.simplify_failsForCause tokens stats _ failed with
      ⟨_, left, budgetFailure⟩ | ⟨_, _, offends⟩
    · cases budgetFailure
    · exact offends.not_balanced balanced
  · intro notBalanced stats
    cases ended : (engine.simplify tokens stats).result with
    | ok result => exact absurd (engine.balanced_of_simplify tokens stats result ended) notBalanced
    | error failure =>
        rcases engine.simplify_failsForCause tokens stats failure ended with
          ⟨_, left, rfl⟩ | ⟨position, rfl, offends⟩
        · exact .inl ⟨_, left, rfl⟩
        · exact .inr ⟨position, rfl, rfl, offends⟩
  · intro notBalanced maxPasses enough
    rcases (Simplifier.mk maxPasses).engine.simplify_converges_or_reports decreases_weight_catalog
        tokens enough with ⟨result, succeeded⟩ | ⟨position, failed, offends⟩
    · exact absurd (Engine.balanced_of_simplify _ tokens .zero result succeeded) notBalanced
    · exact ⟨position, failed, rfl, offends⟩

theorem simplify_reports_unbalanced_mixed :
    ¬Balanced (tokenize "(A & A) | (B & (~~C) | (A") ∧
      ((Simplifier.mk 18).simplifyTokens (tokenize "(A & A) | (B & (~~C) | (A")).result =
        .error (.unbalanced 15 (tokenize "(A & A) | (B & (~~C) | (A")) ∧
      Offends (tokenize "(A & A) | (B & (~~C) | (A") 15 ∧
      ¬Balanced (tokenize "(A & A) | B) & (C") ∧
      (Engine.simplify ⟨catalog, 2⟩ (tokenize "(A & A) | B) & (C") .zero).result =
        .error (.unbalanced 7 (tokenize "(A & A) | B) & (C")) ∧
      Offends (tokenize "(A & A) | B) & (C") 7 := by
  have unclosed : ¬Balanced (tokenize "(A & A) | (B & (~~C) | (A") := by decide +kernel
  have enough : (tokenize "(A & A) | (B & (~~C) | (A").length + 1 ≤ 18 := by decide +kernel
  have unclosedResult :
      ((Simplifier.mk 18).simplifyTokens (tokenize "(A & A) | (B & (~~C) | (A")).result =
        .error (.unbalanced 15 (tokenize "(A & A) | (B & (~~C) | (A")) := by rfl
  have stray : ¬Balanced (tokenize "(A & A) | B) & (C") := by decide +kernel
  have strayResult :
      (Engine.simplify ⟨catalog, 2⟩ (tokenize "(A & A) | B) & (C") .zero).result =
        .error (.unbalanced 7 (tokenize "(A & A) | B) & (C")) := by rfl
  obtain ⟨position, failed, _, unclosedOffends⟩ :=
    (simplify_reports_unbalanced ⟨catalog, 2⟩ _).2.2 unclosed 18 enough
  rw [unclosedResult] at failed
  cases failed
  rcases (simplify_reports_unbalanced ⟨catalog, 2⟩ _).2.1 stray .zero with
    ⟨_, _, exhausted⟩ | ⟨position, failed, _, strayOffends⟩
  · rw [strayResult] at exhausted
    cases exhausted
  · rw [strayResult] at failed
    cases failed
    exact ⟨unclosed, unclosedResult, unclosedOffends, stray, strayResult, strayOffends⟩

end Engine

end BoolSimplify
