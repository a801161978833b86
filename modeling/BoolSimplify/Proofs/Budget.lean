/-
What the budget decides.

A run looks at its budget only to see whether a pass is left.  It therefore goes the
same way with every budget, until the budget is used up or the run has ended.  The
main statement says that there is a number of passes for any tokens with which the
run ends, that more are neither used nor change anything, and that fewer are all used
up.
-/

import BoolSimplify.Proofs.Unbalanced

namespace BoolSimplify

/-! ### Passes of a step -/

/-- A step that started when `before` passes were used takes back none of them, goes
beyond the budget with none, and takes one at least if it succeeds. -/
structure Outcome.Spends {Result : Type} (outcome : Outcome Result) (before maxPasses : Nat) :
    Prop where
  le : before ≤ outcome.stats.passes
  within : outcome.stats.passes ≤ max before maxPasses
  lt_of_ok : ∀ value, outcome.result = .ok value → before < outcome.stats.passes

namespace Outcome.Spends

variable {First Second : Type} {outcome : Outcome First} {before maxPasses : Nat}

theorem of_error (failure : Failure) (stats : Stats) (events : List Event) :
    (⟨.error failure, stats, events⟩ : Outcome First).Spends stats.passes maxPasses :=
  ⟨Nat.le_refl _, Nat.le_max_left _ _, nofun⟩

theorem after (spends : outcome.Spends before maxPasses) (earlier : List Event) :
    (outcome.after earlier).Spends before maxPasses :=
  ⟨spends.le, spends.within, spends.lt_of_ok⟩

theorem andThen {next : First → Stats → Outcome Second} (spends : outcome.Spends before maxPasses)
    (later : ∀ value stats, (next value stats).Spends stats.passes maxPasses) :
    (outcome.andThen next).Spends before maxPasses := by
  have first := spends.le
  have firstWithin := spends.within
  unfold Outcome.andThen
  cases outcome.result with
  | ok value =>
      obtain ⟨second, secondWithin, onePass⟩ := later value outcome.stats
      refine ⟨Nat.le_trans first second, ?_, ?_⟩
      · dsimp only [Outcome.after]
        omega
      · exact fun result succeeded => Nat.lt_of_le_of_lt first (onePass result succeeded)
  | error failure => exact ⟨first, firstWithin, nofun⟩

end Outcome.Spends

namespace Engine

variable (engine : Engine)

theorem fixedPoint_spends (tokens : List Token) (stats : Stats) :
    (engine.fixedPoint tokens stats).Spends stats.passes engine.maxPasses := by
  have within : (engine.fixedPoint tokens stats).stats.passes ≤ stats.passes + _ :=
    runPasses_passes_le engine.rules (engine.maxPasses - stats.passes) tokens stats
  have onePass (reached : List Token)
      (succeeded : (engine.fixedPoint tokens stats).result = .ok reached) :
      stats.passes < (engine.fixedPoint tokens stats).stats.passes :=
    (engine.fixedPoint_settles tokens reached stats succeeded).passes_lt
  refine ⟨?_, by omega, onePass⟩
  cases ended : (engine.fixedPoint tokens stats).result with
  | ok reached => exact Nat.le_of_lt (onePass reached ended)
  | error failure =>
      have exhausted := runPasses_failsByBudget engine.rules _ tokens stats failure ended
      exact Nat.le_trans (Nat.le_add_right _ _) exhausted.1

theorem simplifyFrom_spends (input tokens collected : List Token) (position : Nat)
    (groups : List OpenGroup) (stats : Stats) :
    (engine.simplifyFrom input position tokens collected groups stats).Spends stats.passes
      engine.maxPasses := by
  induction tokens generalizing collected position groups stats with
  | nil =>
      cases groups with
      | nil => exact engine.fixedPoint_spends collected.reverse stats
      | cons group groups => exact .of_error _ stats []
  | cons token rest ih =>
      rcases token.opening_or_closing_or_plain with rfl | rfl | plain
      · exact ih _ _ _ _
      · cases groups with
        | nil => exact .of_error _ stats []
        | cons group groups =>
            refine (engine.fixedPoint_spends collected.reverse stats).andThen ?_
            exact fun interior stats => (ih _ _ groups stats.countGroup).after _
      · rw [engine.simplifyFrom_plain _ _ _ _ _ _ _ plain]
        exact ih _ _ _ _

end Engine

/-! ### Runs with different budgets -/

/-- All of the budget was used and was not enough. -/
def Outcome.Exhausts {Result : Type} (outcome : Outcome Result) (maxPasses : Nat) : Prop :=
  outcome.stats.passes = maxPasses ∧ ∃ left, outcome.result = .error (.nonConvergent maxPasses left)

/-- A step with the budget `limit` is the step `outcome`, unless that one takes more
passes. -/
def Outcome.CutOff {Result : Type} (limited outcome : Outcome Result) (limit : Nat) : Prop :=
  (outcome.stats.passes ≤ limit → limited = outcome) ∧
    (limit < outcome.stats.passes → limited.Exhausts limit)

namespace Outcome.CutOff

variable {First Second : Type} {limited outcome : Outcome First} {limit : Nat}

theorem of_within (within : outcome.stats.passes ≤ limit) : outcome.CutOff outcome limit :=
  ⟨fun _ => rfl, fun beyond => absurd within (Nat.not_le_of_lt beyond)⟩

theorem after (cut : limited.CutOff outcome limit) (earlier : List Event) :
    (limited.after earlier).CutOff (outcome.after earlier) limit :=
  ⟨fun within => congrArg (·.after earlier) (cut.1 within), cut.2⟩

theorem andThen {limitedNext next : First → Stats → Outcome Second} {value : First}
    (cut : limited.CutOff outcome limit) (succeeded : outcome.result = .ok value)
    (later : outcome.stats.passes ≤ limit →
      (limitedNext value outcome.stats).CutOff (next value outcome.stats) limit)
    (spends : outcome.stats.passes ≤ (next value outcome.stats).stats.passes) :
    (limited.andThen limitedNext).CutOff (outcome.andThen next) limit := by
  have whole : outcome.andThen next = (next value outcome.stats).after outcome.events := by
    rw [Outcome.andThen, succeeded]
  rw [whole]
  by_cases within : outcome.stats.passes ≤ limit
  · rw [cut.1 within, Outcome.andThen, succeeded]
    exact (later within).after outcome.events
  · obtain ⟨allUsed, left, failed⟩ := cut.2 (Nat.lt_of_not_le within)
    rw [Outcome.andThen, failed]
    exact ⟨fun laterWithin => absurd (Nat.le_trans spends laterWithin) within,
      fun _ => ⟨allUsed, left, rfl⟩⟩

end Outcome.CutOff

theorem runPasses_cutOff (rules : List Rule) (budget limit : Nat) (tokens reached : List Token)
    (stats : Stats) (succeeded : (runPasses rules budget tokens stats).result = .ok reached) :
    (runPasses rules limit tokens stats).CutOff (runPasses rules budget tokens stats)
      (stats.passes + limit) := by
  induction budget generalizing limit tokens stats with
  | zero => cases succeeded
  | succ budget ih =>
      have onePass :=
        (runPasses_settles rules (budget + 1) tokens reached stats succeeded).passes_lt
      cases limit with
      | zero =>
          exact ⟨fun within => absurd onePass (Nat.not_lt_of_le within),
            fun _ => ⟨rfl, tokens, rfl⟩⟩
      | succ limit =>
          by_cases same : (runPass rules tokens).tokens = tokens
          · simp only [runPasses, if_pos same]
            exact .of_within (by simp only [Stats.countPass_passes]; omega)
          · simp only [runPasses, if_neg same] at succeeded ⊢
            have later := ih limit _ _ succeeded
            rw [Stats.countPass_passes, Nat.add_right_comm] at later
            exact later.after _

namespace Engine

theorem fixedPoint_cutOff (rules : List Rule) (maxPasses limit : Nat) (tokens reached : List Token)
    (stats : Stats) (started : stats.passes ≤ limit)
    (succeeded : (fixedPoint ⟨rules, maxPasses⟩ tokens stats).result = .ok reached) :
    (fixedPoint ⟨rules, limit⟩ tokens stats).CutOff (fixedPoint ⟨rules, maxPasses⟩ tokens stats)
      limit := by
  have cut := runPasses_cutOff rules _ (limit - stats.passes) tokens reached stats succeeded
  rwa [Nat.add_sub_cancel' started] at cut

theorem fixedPoint_ok_or_nonConvergent (engine : Engine) (tokens : List Token) (stats : Stats) :
    (∃ reached, (engine.fixedPoint tokens stats).result = .ok reached) ∨
      ∃ passes left, (engine.fixedPoint tokens stats).result =
        .error (.nonConvergent passes left) := by
  cases ended : (engine.fixedPoint tokens stats).result with
  | ok reached => exact .inl ⟨reached, rfl⟩
  | error failure =>
      obtain ⟨_, left, rfl⟩ := engine.fixedPoint_failsByBudget tokens stats failure ended
      exact .inr ⟨_, left, rfl⟩

/-- A run that is not stopped by its budget is cut off by a smaller one, and repeated by
all others. -/
theorem simplifyFrom_cutOff (rules : List Rule) (maxPasses limit : Nat)
    (input tokens collected : List Token) (position : Nat) (groups : List OpenGroup)
    (stats : Stats) (started : stats.passes ≤ limit)
    (converges : ∀ passes left,
      (simplifyFrom ⟨rules, maxPasses⟩ input position tokens collected groups stats).result ≠
        .error (.nonConvergent passes left)) :
    (simplifyFrom ⟨rules, limit⟩ input position tokens collected groups stats).CutOff
      (simplifyFrom ⟨rules, maxPasses⟩ input position tokens collected groups stats) limit := by
  induction tokens generalizing collected position groups stats with
  | nil =>
      cases groups with
      | nil =>
          rcases fixedPoint_ok_or_nonConvergent ⟨rules, maxPasses⟩ collected.reverse stats with
            ⟨reached, succeeded⟩ | ⟨passes, left, failed⟩
          · exact fixedPoint_cutOff rules maxPasses limit _ reached stats started succeeded
          · exact absurd failed (converges passes left)
      | cons group groups => exact .of_within started
  | cons token rest ih =>
      rcases token.opening_or_closing_or_plain with rfl | rfl | plain
      · exact ih _ _ _ _ started converges
      · cases groups with
        | nil => exact .of_within started
        | cons group groups =>
            rw [simplifyFrom] at converges ⊢
            rw [simplifyFrom]
            rcases fixedPoint_ok_or_nonConvergent ⟨rules, maxPasses⟩ collected.reverse stats with
              ⟨interior, reached⟩ | ⟨passes, left, failed⟩
            · have cut :=
                fixedPoint_cutOff rules maxPasses limit _ interior stats started reached
              rw [Outcome.andThen, reached] at converges
              have spends := simplifyFrom_spends ⟨rules, maxPasses⟩ input rest
                ((asOperand interior).reverse ++ group.around) (position + 1) groups
                (fixedPoint ⟨rules, maxPasses⟩ collected.reverse stats).stats.countGroup
              refine cut.andThen reached ?_ spends.le
              exact fun within => (ih _ (position + 1) groups
                (Stats.countGroup _) within converges).after _
            · rw [Outcome.andThen, failed] at converges
              exact absurd rfl (converges passes left)
      · rw [simplifyFrom_plain _ _ _ _ _ _ _ _ plain] at converges ⊢
        rw [simplifyFrom_plain _ _ _ _ _ _ _ _ plain]
        exact ih _ _ _ _ started converges

/-- For any tokens there is a number of passes with which a run of the catalog ends, with
a result or at an unmatched parenthesis.  With a larger budget it ends in the same
way and uses no more passes.  A smaller one is used up. -/
theorem simplify_threshold (tokens : List Token) :
    ∃ (needed : Nat) (outcome : Outcome (List Token)),
      ((∃ result, outcome.result = .ok result) ∨
        ∃ position, outcome.result = .error (.unbalanced position tokens)) ∧
      outcome.stats.passes = needed ∧
      (∀ maxPasses, needed ≤ maxPasses → simplify ⟨catalog, maxPasses⟩ tokens .zero = outcome) ∧
      ∀ maxPasses, maxPasses < needed →
        (simplify ⟨catalog, maxPasses⟩ tokens .zero).Exhausts maxPasses := by
  let enough : Engine := ⟨catalog, tokens.length + 1⟩
  have ends := enough.simplify_converges_or_reports decreases_weight_catalog tokens (Nat.le_refl _)
  have cut (maxPasses : Nat) : (simplify ⟨catalog, maxPasses⟩ tokens .zero).CutOff
      (enough.simplify tokens .zero) maxPasses := by
    apply simplifyFrom_cutOff _ _ _ _ _ _ _ _ _ (Nat.zero_le maxPasses)
    intro passes left failed
    rcases ends with ⟨result, succeeded⟩ | ⟨position, unbalanced, _⟩
    · cases succeeded.symm.trans failed
    · cases unbalanced.symm.trans failed
  refine ⟨_, enough.simplify tokens .zero, ?_, rfl, fun maxPasses => (cut maxPasses).1,
    fun maxPasses => (cut maxPasses).2⟩
  exact ends.imp_right fun ⟨position, failed, _⟩ => ⟨position, failed⟩

theorem simplify_threshold_unclosed :
    (∀ maxPasses, 4 ≤ maxPasses →
      (simplify ⟨catalog, maxPasses⟩ (tokenize "(A & A) | ((~~B) & (C") .zero).result =
        .error (.unbalanced 13 (tokenize "(A & A) | ((~~B) & (C"))) ∧
      ∀ maxPasses, maxPasses < 4 →
        (simplify ⟨catalog, maxPasses⟩ (tokenize "(A & A) | ((~~B) & (C") .zero).Exhausts
          maxPasses := by
  obtain ⟨needed, outcome, _, used, repeated, cut⟩ :=
    simplify_threshold (tokenize "(A & A) | ((~~B) & (C")
  have run : (simplify ⟨catalog, 4⟩ (tokenize "(A & A) | ((~~B) & (C") .zero).result =
      .error (.unbalanced 13 (tokenize "(A & A) | ((~~B) & (C")) := by rfl
  have passes :
      (simplify ⟨catalog, 4⟩ (tokenize "(A & A) | ((~~B) & (C") .zero).stats.passes = 4 := by rfl
  by_cases enough : needed ≤ 4
  · have same := repeated 4 enough
    rw [same] at run passes
    obtain rfl : needed = 4 := used.symm.trans passes
    refine ⟨fun maxPasses larger => ?_, cut⟩
    rw [repeated maxPasses larger, run]
  · obtain ⟨_, left, failed⟩ := cut 4 (Nat.lt_of_not_le enough)
    rw [run] at failed
    cases failed

end Engine

end BoolSimplify
