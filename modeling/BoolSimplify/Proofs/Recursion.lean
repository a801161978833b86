/-
The engine as a recursion on groups.

Balanced tokens are the tokens of one forest only, so there is one way to read
them as groups.  The main statement says that the engine, which keeps the open
groups on a stack, ends as the recursion on this forest does: with the same
tokens or the same failure, and with the same counters, whatever the rules, the
budget and the counters at the start.
-/

import BoolSimplify.Proofs.Nesting
import BoolSimplify.Catalog

namespace BoolSimplify

/-! ### One forest for balanced tokens -/

namespace Forest

theorem group_split {firstInner secondInner : Forest} {firstRest secondRest : List Token}
    (same : firstInner.tokens ++ .closing :: firstRest =
      secondInner.tokens ++ .closing :: secondRest) :
    firstInner.tokens = secondInner.tokens ∧ firstRest = secondRest := by
  have noLonger (shorter longer : Forest) (between : List Token)
      (longerEq : longer.tokens = shorter.tokens ++ .closing :: between) : False := by
    have balanced := longer.balanced
    rw [longerEq] at balanced
    exact not_balanced_closing between (balanced.of_append_right shorter.balanced)
  rcases List.append_eq_append_iff.mp same with ⟨between, secondEq, restEq⟩ | ⟨between, firstEq, restEq⟩
  · cases between with
    | nil =>
        rw [List.append_nil] at secondEq
        exact ⟨secondEq.symm, (List.cons.inj restEq).2⟩
    | cons token between =>
        obtain ⟨rfl, _⟩ := List.cons.inj restEq
        exact (noLonger firstInner secondInner between secondEq).elim
  · cases between with
    | nil =>
        rw [List.append_nil] at firstEq
        exact ⟨firstEq, (List.cons.inj restEq).2.symm⟩
    | cons token between =>
        obtain ⟨rfl, _⟩ := List.cons.inj restEq
        exact (noLonger secondInner firstInner between firstEq).elim

theorem tokens_injective (first second : Forest) (same : first.tokens = second.tokens) :
    first = second := by
  induction first generalizing second with
  | empty =>
      cases second with
      | empty => rfl
      | single token plain rest => cases same
      | group inner rest => cases same
  | single token plain rest ih =>
      cases second with
      | empty => cases same
      | single other otherPlain otherRest =>
          obtain ⟨rfl, sameRest⟩ := List.cons.inj same
          rw [ih otherRest sameRest]
      | group inner otherRest =>
          obtain ⟨rfl, _⟩ := List.cons.inj same
          cases plain
  | group inner rest ihInner ihRest =>
      cases second with
      | empty => cases same
      | single token plain otherRest =>
          obtain ⟨rfl, _⟩ := List.cons.inj same
          cases plain
      | group otherInner otherRest =>
          obtain ⟨sameInner, sameRest⟩ := group_split (List.cons.inj same).2
          rw [ihInner otherInner sameInner, ihRest otherRest sameRest]

end Forest

/-! ### Failures of the recursion -/

/-- Only an exhausted budget makes the step fail. -/
def Outcome.FailsByBudget {Result : Type} (outcome : Outcome Result) (maxPasses : Nat) : Prop :=
  ∀ failure, outcome.result = .error failure →
    maxPasses ≤ outcome.stats.passes ∧
      ∃ left, failure = .nonConvergent outcome.stats.passes left

namespace Outcome.FailsByBudget

variable {First Second : Type} {maxPasses : Nat}

theorem of_work {first second : Outcome First} (same : first.work = second.work)
    (fails : second.FailsByBudget maxPasses) : first.FailsByBudget maxPasses := by
  intro failure failed
  rw [result_of_work same] at failed
  rw [stats_of_work same]
  exact fails failure failed

theorem map {outcome : Outcome First} (fails : outcome.FailsByBudget maxPasses)
    (change : First → Second) : (outcome.map change).FailsByBudget maxPasses := by
  intro failure failed
  obtain ⟨result, stats, events⟩ := outcome
  cases result with
  | ok value => cases failed
  | error cause =>
      change Except.error cause = Except.error failure at failed
      rw [← Except.error.inj failed]
      exact fails cause rfl

theorem andThen {outcome : Outcome First} {next : First → Stats → Outcome Second}
    (fails : outcome.FailsByBudget maxPasses)
    (later : ∀ value stats, (next value stats).FailsByBudget maxPasses) :
    (outcome.andThen next).FailsByBudget maxPasses := by
  cases ended : outcome.result with
  | ok value => exact of_work (outcome.andThen_of_ok next value ended) (later value _)
  | error failure =>
      have work := outcome.andThen_of_error next failure ended
      intro other failed
      have sameResult : (outcome.andThen next).result = .error failure := congrArg Prod.fst work
      have sameStats : (outcome.andThen next).stats = outcome.stats := congrArg Prod.snd work
      rw [failed] at sameResult
      cases sameResult
      rw [sameStats]
      exact fails failure ended

end Outcome.FailsByBudget

theorem runPasses_failsByBudget (rules : List Rule) (budget : Nat) (tokens : List Token)
    (stats : Stats) :
    (runPasses rules budget tokens stats).FailsByBudget (stats.passes + budget) := by
  induction budget generalizing tokens stats with
  | zero =>
      intro failure failed
      cases failed
      exact ⟨Nat.le_refl _, tokens, rfl⟩
  | succ budget ih =>
      by_cases same : (runPass rules tokens).tokens = tokens
      · intro failure failed
        simp only [runPasses, if_pos same] at failed
        cases failed
      · have later := ih (runPass rules tokens).tokens
          (stats.countPass (runPass rules tokens).replacements)
        rw [Stats.countPass_passes, Nat.add_right_comm] at later
        simp only [runPasses, if_neg same]
        exact later

namespace Engine

variable (engine : Engine)

theorem fixedPoint_failsByBudget (tokens : List Token) (stats : Stats) :
    (engine.fixedPoint tokens stats).FailsByBudget engine.maxPasses := by
  intro failure failed
  obtain ⟨exhausted, left⟩ :=
    runPasses_failsByBudget engine.rules _ tokens stats failure failed
  refine ⟨Nat.le_trans ?_ exhausted, left⟩
  omega

theorem flatten_group (inner rest : Forest) (stats : Stats) :
    (engine.flatten (.group inner rest) stats).work =
      ((engine.simplifyForest inner stats).andThen fun interior stats =>
        (engine.flatten rest stats.countGroup).map (asOperand interior ++ ·)).work := by
  rw [flatten, simplifyForest, Outcome.work_andThen_assoc]

theorem flatten_failsByBudget (forest : Forest) (stats : Stats) :
    (engine.flatten forest stats).FailsByBudget engine.maxPasses := by
  induction forest generalizing stats with
  | empty =>
      intro failure failed
      cases failed
  | single token plain rest ih => exact (ih stats).map _
  | group inner rest ihInner ihRest =>
      refine .of_work (engine.flatten_group inner rest stats) (.andThen ?_ ?_)
      · exact (ihInner stats).andThen engine.fixedPoint_failsByBudget
      · exact fun interior stats => (ihRest stats.countGroup).map _

theorem simplifyForest_failsByBudget (forest : Forest) (stats : Stats) :
    (engine.simplifyForest forest stats).FailsByBudget engine.maxPasses :=
  (engine.flatten_failsByBudget forest stats).andThen engine.fixedPoint_failsByBudget

/-- On balanced tokens the engine ends as the recursion on their groups does, with
the same result and the same counters.  When it fails, the budget is used up.  A
group is put back bare when it is a single operand, and in parentheses otherwise. -/
theorem simplify_refines_recursion (tokens : List Token) (balanced : Balanced tokens)
    (stats : Stats) :
    (∃ forest : Forest,
      (forest.tokens = tokens ∧ ∀ other : Forest, other.tokens = tokens → other = forest) ∧
        (engine.simplify tokens stats).result = (engine.simplifyForest forest stats).result ∧
        (engine.simplify tokens stats).stats = (engine.simplifyForest forest stats).stats ∧
        (engine.simplify tokens stats).FailsByBudget engine.maxPasses) ∧
      ∀ interior : List Token,
        (Operand interior → asOperand interior = interior) ∧
          (¬Operand interior → asOperand interior = .opening :: interior ++ [.closing]) := by
  obtain ⟨forest, rfl⟩ := balanced.exists_forest
  have work := engine.work_simplify_tokens forest stats
  refine ⟨⟨forest, ⟨rfl, fun other same => other.tokens_injective forest same⟩, ?_, ?_, ?_⟩, ?_⟩
  · exact Outcome.result_of_work work
  · exact Outcome.stats_of_work work
  · exact .of_work work (engine.simplifyForest_failsByBudget forest stats)
  · exact fun interior => ⟨asOperand_of_operand, asOperand_of_not_operand⟩

/-- `~((A & A) | ) & (~~B)` -/
def unfinishedGroups : List Token :=
  [.neg, .opening, .opening, .letter .a, .conj, .letter .a, .closing, .disj, .closing, .conj,
    .opening, .neg, .neg, .letter .b, .closing]

theorem simplify_refines_recursion_exhausted :
    Balanced unfinishedGroups ∧
      (Engine.simplify ⟨catalog, 6⟩ unfinishedGroups ⟨2, 7, 1⟩).result =
        .error (.nonConvergent 6 [.letter .b]) ∧
      (Engine.simplify ⟨catalog, 6⟩ unfinishedGroups ⟨2, 7, 1⟩).stats = ⟨6, 9, 3⟩ ∧
      ∃ forest : Forest,
        (forest.tokens = unfinishedGroups ∧
          ∀ other : Forest, other.tokens = unfinishedGroups → other = forest) ∧
        (Engine.simplify ⟨catalog, 6⟩ unfinishedGroups ⟨2, 7, 1⟩).result =
          (Engine.simplifyForest ⟨catalog, 6⟩ forest ⟨2, 7, 1⟩).result ∧
        (Engine.simplify ⟨catalog, 6⟩ unfinishedGroups ⟨2, 7, 1⟩).stats =
          (Engine.simplifyForest ⟨catalog, 6⟩ forest ⟨2, 7, 1⟩).stats ∧
        (Engine.simplify ⟨catalog, 6⟩ unfinishedGroups ⟨2, 7, 1⟩).FailsByBudget 6 := by
  have balanced : Balanced unfinishedGroups := by decide
  have refines := simplify_refines_recursion ⟨catalog, 6⟩ unfinishedGroups balanced ⟨2, 7, 1⟩
  exact ⟨balanced, rfl, rfl, refines.1⟩

end Engine

end BoolSimplify
