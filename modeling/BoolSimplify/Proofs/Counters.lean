/-
What the counters of a run can be.

A group costs the pass that confirms it, and every other pass makes a replacement.  A
replacement takes tokens away, and so does a group that is put back without its
parentheses.  The main statement bounds the counters of a run by each other and by the
number of tokens, also when the run fails.
-/

import BoolSimplify.Proofs.Log
import BoolSimplify.Proofs.NormalForm
import BoolSimplify.Proofs.Unbalanced

namespace BoolSimplify

/-! ### Tokens that are taken away -/

theorem length_asOperand (tokens : List Token) :
    (asOperand tokens).length = tokens.length + if isOperand tokens then 0 else 2 := by
  unfold asOperand
  split
  · rfl
  · rw [List.length_append, List.length_cons]
    rfl

/-! ### Passes -/

theorem runPasses_counts (rules : List Rule) (budget : Nat) (tokens : List Token) (stats : Stats) :
    ∃ count left, (runPasses rules budget tokens stats).stats.groups = stats.groups ∧
      (runPasses rules budget tokens stats).stats.replacements = stats.replacements + count ∧
      (runPasses rules budget tokens stats).stats.passes ≤ stats.passes + count + 1 ∧
      Rewrites rules count tokens left ∧
      ((runPasses rules budget tokens stats).result = .ok left ∨ ∃ passes,
        (runPasses rules budget tokens stats).result = .error (.nonConvergent passes left)) := by
  induction budget generalizing tokens stats with
  | zero => exact ⟨0, tokens, rfl, rfl, Nat.le_succ _, .refl tokens, .inr ⟨_, rfl⟩⟩
  | succ budget ih =>
      have made := runPass_rewrites rules tokens
      by_cases same : (runPass rules tokens).tokens = tokens
      · simp only [runPasses, if_pos same]
        rw [same] at made
        refine ⟨_, tokens, rfl, rfl, ?_, made, .inl rfl⟩
        rw [Stats.countPass_passes]
        omega
      · simp only [runPasses, if_neg same, Outcome.after]
        have someMade := mt (runPass_of_idle rules tokens) same
        obtain ⟨count, left, groups, replacements, passes, later, ended⟩ :=
          ih (runPass rules tokens).tokens (stats.countPass (runPass rules tokens).replacements)
        rw [Stats.countPass_passes] at passes
        refine ⟨_, left, groups, ?_, ?_, made.trans later, ended⟩
        · rw [replacements, Stats.countPass, Nat.add_assoc]
        · omega

theorem Engine.fixedPoint_counts (engine : Engine) (tokens : List Token) (stats : Stats) :
    ∃ count left, (engine.fixedPoint tokens stats).stats.groups = stats.groups ∧
      (engine.fixedPoint tokens stats).stats.replacements = stats.replacements + count ∧
      (engine.fixedPoint tokens stats).stats.passes ≤ stats.passes + count + 1 ∧
      Rewrites engine.rules count tokens left ∧
      ((engine.fixedPoint tokens stats).result = .ok left ∨ ∃ passes,
        (engine.fixedPoint tokens stats).result = .error (.nonConvergent passes left)) :=
  runPasses_counts engine.rules (engine.maxPasses - stats.passes) tokens stats

/-! ### Runs -/

/-- The groups that were put back without parentheses. -/
def Outcome.unwrapped {Result : Type} (outcome : Outcome Result) : Nat :=
  outcome.closedGroups.countP fun closed => isOperand closed.result

theorem Outcome.unwrapped_group {outcome rest : Outcome (List Token)} {interior : List Token}
    (first last : Nat) (silent : outcome.closedGroups = []) :
    ((rest.after [.groupSimplified first last interior]).after outcome.events).unwrapped =
      rest.unwrapped + if isOperand interior then 1 else 0 := by
  rw [Outcome.unwrapped, Outcome.closedGroups, Outcome.after, List.filterMap_append]
  change List.countP _ (outcome.closedGroups ++ _) = _
  rw [silent]
  exact List.countP_cons

/-- What a step may add to the counters, when it reads `closings` parentheses that close a
group and there are `size` tokens at its start. -/
structure Outcome.Within (outcome : Outcome (List Token)) (before : Stats) (closings size : Nat) :
    Prop where
  groups_le : outcome.stats.groups ≤ before.groups + closings
  passes_le : outcome.stats.passes + (before.groups + before.replacements) ≤
    before.passes + (outcome.stats.groups + outcome.stats.replacements) + 1
  size_le : outcome.stats.replacements + 2 * outcome.unwrapped ≤ before.replacements + size
  of_ok : ∀ result, outcome.result = .ok result →
    outcome.stats.groups = before.groups + closings ∧
      before.passes + closings + 1 ≤ outcome.stats.passes ∧
      result.length + outcome.stats.replacements + 2 * outcome.unwrapped ≤
        before.replacements + size

namespace Outcome.Within

theorem unbalanced (position : Nat) (input : List Token) (stats : Stats) (closings size : Nat) :
    (⟨.error (.unbalanced position input), stats, []⟩ : Outcome (List Token)).Within stats closings
      size := by
  refine ⟨Nat.le_add_right _ _, Nat.le_succ_of_le (Nat.le_refl _), Nat.le_add_right _ _, ?_⟩
  intro result succeeded
  cases succeeded

/-- A group of `size` tokens and its parentheses pay for what is done in it and for what is
put back, which is left to the level around it. -/
theorem group {outcome : Outcome (List Token)} {before : Stats} {size around closings : Nat}
    (inside : outcome.Within before 0 size) (silent : outcome.closedGroups = [])
    {next : List Token → Stats → Outcome (List Token)}
    (later : ∀ interior stats, (next interior stats).Within stats.countGroup closings
      ((asOperand interior).length + around)) (first last : Nat) :
    (outcome.andThen fun interior stats =>
        (next interior stats).after [.groupSimplified first last interior]).Within before
      (closings + 1) (size + 2 + around) := by
  cases ended : outcome.result with
  | error failure =>
      simp only [Outcome.andThen, ended]
      refine ⟨Nat.le_trans inside.groups_le (Nat.le_add_right _ _), inside.passes_le, ?_, ?_⟩
      · apply Nat.le_trans inside.size_le
        omega
      · intro result succeeded
        cases succeeded
  | ok interior =>
      simp only [Outcome.andThen, ended]
      obtain ⟨sameGroups, onePass, insideSize⟩ := inside.of_ok interior ended
      have insidePasses := inside.passes_le
      have remaining := later interior outcome.stats
      generalize next interior outcome.stats = rest at remaining ⊢
      have restGroups : rest.stats.groups ≤ outcome.stats.groups + 1 + closings :=
        remaining.groups_le
      have restPasses : rest.stats.passes +
          (outcome.stats.groups + 1 + outcome.stats.replacements) ≤
          outcome.stats.passes + (rest.stats.groups + rest.stats.replacements) + 1 :=
        remaining.passes_le
      have restSize : rest.stats.replacements + 2 * rest.unwrapped ≤
          outcome.stats.replacements + ((asOperand interior).length + around) :=
        remaining.size_le
      have putBack : (asOperand interior).length +
          2 * ((rest.after [.groupSimplified first last interior]).after outcome.events).unwrapped =
          interior.length + 2 + 2 * rest.unwrapped := by
        rw [unwrapped_group first last silent, length_asOperand]
        split <;> omega
      refine ⟨?_, ?_, ?_, ?_⟩
      · change rest.stats.groups ≤ _
        omega
      · change rest.stats.passes + _ ≤ _ + (rest.stats.groups + rest.stats.replacements) + 1
        omega
      · change rest.stats.replacements + _ ≤ _
        omega
      · intro result succeeded
        obtain ⟨laterGroups, laterPasses, laterSize⟩ :
            rest.stats.groups = outcome.stats.groups + 1 + closings ∧
              outcome.stats.passes + closings + 1 ≤ rest.stats.passes ∧
              result.length + rest.stats.replacements + 2 * rest.unwrapped ≤
                outcome.stats.replacements + ((asOperand interior).length + around) :=
          remaining.of_ok result succeeded
        change rest.stats.groups = _ ∧ _ ≤ rest.stats.passes ∧
          result.length + rest.stats.replacements + _ ≤ _
        refine ⟨?_, ?_, ?_⟩ <;> omega

end Outcome.Within

namespace Engine

variable (engine : Engine)

theorem fixedPoint_within (decreases : Decreases List.length engine.rules) (tokens : List Token)
    (stats : Stats) : (engine.fixedPoint tokens stats).Within stats 0 tokens.length := by
  obtain ⟨count, left, groups, replacements, passes, rewritten, ended⟩ :=
    engine.fixedPoint_counts tokens stats
  have shorter := decreases.rewrites rewritten
  have noGroups : (engine.fixedPoint tokens stats).unwrapped = 0 := by
    rw [Outcome.unwrapped, engine.fixedPoint_closedGroups, List.countP_nil]
  refine ⟨Nat.le_of_eq groups, ?_, ?_, ?_⟩
  · omega
  · omega
  · intro reached succeeded
    have onePass := (engine.fixedPoint_settles tokens reached stats succeeded).passes_lt
    rw [succeeded] at ended
    rcases ended with same | ⟨_, failed⟩
    · cases same
      refine ⟨groups, onePass, ?_⟩
      omega
    · cases failed

def pendingLength (collected : List Token) (groups : List OpenGroup) : Nat :=
  collected.length + (groups.map fun group => group.around.length + 1).sum

theorem simplifyFrom_within (decreases : Decreases List.length engine.rules)
    (input tokens collected : List Token) (position : Nat) (groups : List OpenGroup)
    (stats : Stats) :
    (engine.simplifyFrom input position tokens collected groups stats).Within stats
      (tokens.count .closing) (pendingLength collected groups + tokens.length) := by
  induction tokens generalizing collected position groups stats with
  | nil =>
      cases groups with
      | nil =>
          have reached := engine.fixedPoint_within decreases collected.reverse stats
          rwa [List.length_reverse] at reached
      | cons group groups => exact .unbalanced group.position input stats _ _
  | cons token rest ih =>
      rcases token.opening_or_closing_or_plain with rfl | rfl | plain
      · have later := ih [] (position + 1) (⟨position, collected⟩ :: groups) stats
        have sameSize : pendingLength [] (⟨position, collected⟩ :: groups) + rest.length =
            pendingLength collected groups + (rest.length + 1) := by
          simp only [pendingLength, List.length_nil, List.map_cons, List.sum_cons]
          omega
        rw [List.count_cons_of_ne (by decide), List.length_cons, ← sameSize]
        exact later
      · cases groups with
        | nil => exact .unbalanced position input stats _ _
        | cons group groups =>
            have inside := engine.fixedPoint_within decreases collected.reverse stats
            rw [List.length_reverse] at inside
            have sameSize :
                collected.length + 2 + (pendingLength group.around groups + rest.length) =
                pendingLength collected (group :: groups) + (rest.length + 1) := by
              simp only [pendingLength, List.map_cons, List.sum_cons]
              omega
            rw [List.count_cons_self, List.length_cons, ← sameSize]
            refine Outcome.Within.group inside (engine.fixedPoint_closedGroups _ _) ?_ _ _
            intro interior stats
            have later := ih ((asOperand interior).reverse ++ group.around) (position + 1) groups
              stats.countGroup
            have sameLater : pendingLength ((asOperand interior).reverse ++ group.around) groups +
                rest.length = (asOperand interior).length +
                  (pendingLength group.around groups + rest.length) := by
              simp only [pendingLength, List.length_append, List.length_reverse]
              omega
            rwa [sameLater] at later
      · have later := ih (token :: collected) (position + 1) groups stats
        have notClosing : token ≠ .closing := by
          rintro rfl
          cases plain
        have sameSize : pendingLength (token :: collected) groups + rest.length =
            pendingLength collected groups + (rest.length + 1) := by
          simp only [pendingLength, List.length_cons]
          omega
        rw [engine.simplifyFrom_plain _ _ _ _ _ _ _ plain, List.count_cons_of_ne notClosing,
          List.length_cons, ← sameSize]
        exact later

/-- A successful run counts the groups of its tokens.  It has one pass for each of them,
one for the outermost level and at most one more for each replacement, and every
replacement and every group put back without parentheses makes the result shorter.
Hence a counter needs one bit more than the number of tokens, also in a run that fails. -/
theorem simplify_counters (maxPasses : Nat) (tokens : List Token) :
    let outcome := simplify ⟨catalog, maxPasses⟩ tokens .zero
    (∀ result, outcome.result = .ok result →
      outcome.stats.groups = tokens.count .opening ∧
        outcome.stats.groups + 1 ≤ outcome.stats.passes ∧
        outcome.stats.passes ≤ outcome.stats.groups + 1 + outcome.stats.replacements ∧
        result.length + outcome.stats.replacements + 2 * outcome.unwrapped ≤ tokens.length ∧
        result.length ≤ tokens.length) ∧
      ∀ bits, tokens.length < 2 ^ bits →
        outcome.stats.groups < 2 ^ (bits + 1) ∧ outcome.stats.passes < 2 ^ (bits + 1) ∧
          outcome.stats.replacements < 2 ^ (bits + 1) := by
  intro outcome
  have within : outcome.Within .zero (tokens.count .closing) (0 + tokens.length) :=
    simplifyFrom_within ⟨catalog, maxPasses⟩ decreases_length_catalog tokens tokens [] 0 [] .zero
  obtain ⟨groupsLe, passesLe, sizeLe, ofOk⟩ := within
  simp only [Stats.zero, Nat.zero_add, Nat.add_zero] at groupsLe passesLe sizeLe ofOk
  constructor
  · intro result succeeded
    obtain ⟨groups, passes, size⟩ := ofOk result succeeded
    have balanced := balanced_of_simplify ⟨catalog, maxPasses⟩ tokens .zero result succeeded
    have counted := count_unmatched tokens
    rw [balanced] at counted
    have sameNumber : tokens.count .closing = tokens.count .opening := counted
    refine ⟨groups.trans sameNumber, ?_, ?_, size, ?_⟩ <;> omega
  · intro bits few
    have someOpen : tokens.count .closing ≤ tokens.length := List.count_le_length
    rw [Nat.pow_succ]
    refine ⟨?_, ?_, ?_⟩ <;> omega

/-- Three groups, of which all but the middle one are put back without parentheses. -/
theorem simplify_counters_nested :
    let outcome := simplify ⟨catalog, 500⟩ (tokenize "~((A & A) | foo) & (~~~C)") .zero
    (outcome.result = .ok (tokenize "~(A | foo) & ~C") ∧ outcome.stats = ⟨6, 2, 3⟩ ∧
      outcome.unwrapped = 2) ∧
      (3 + 1 ≤ 6 ∧ 6 ≤ 3 + 1 + 2 ∧ (tokenize "~(A | foo) & ~C").length + 2 + 2 * 2 ≤ 17) ∧
      6 < 2 ^ (5 + 1) := by
  intro outcome
  have ended : outcome.result = .ok (tokenize "~(A | foo) & ~C") := by decide +kernel
  have counted : outcome.stats = ⟨6, 2, 3⟩ := by decide +kernel
  have unwrapped : outcome.unwrapped = 2 := by decide +kernel
  have read : (tokenize "~((A & A) | foo) & (~~~C)").length = 17 := by decide +kernel
  obtain ⟨onSuccess, bounded⟩ :=
    simplify_counters 500 (tokenize "~((A & A) | foo) & (~~~C)")
  obtain ⟨_, passesGe, passesLe, size, _⟩ := onSuccess _ ended
  obtain ⟨_, few, _⟩ := bounded 5 (by rw [read]; decide)
  rw [counted] at passesGe passesLe size few
  rw [unwrapped, read] at size
  exact ⟨⟨ended, counted, unwrapped⟩, ⟨passesGe, passesLe, size⟩, few⟩

end Engine

end BoolSimplify
