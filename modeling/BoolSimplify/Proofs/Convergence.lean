/-
A budget that is always enough.

The tokens of a level pay for its passes.  A `)` weighs nothing and is free to pay
for the pass that confirms its group, and a `(` that is dropped pays for nothing
else.  Every other pass makes what is left lighter.  The main statement bounds the
passes of a run by the number of tokens and one.
-/

import BoolSimplify.Proofs.Catalog
import BoolSimplify.Simplifier

namespace BoolSimplify

theorem weight_asOperand_le (tokens : List Token) :
    weight (asOperand tokens) ≤ weight tokens + 1 := by
  unfold asOperand
  split
  · exact Nat.le_succ _
  · rw [List.cons_append, weight, weight_append]
    change 1 + (weight tokens + 0) ≤ weight tokens + 1
    omega

namespace Engine

variable (engine : Engine) (decreases : Decreases weight engine.rules)

include decreases

theorem fixedPoint_converges (tokens : List Token) (stats : Stats)
    (enough : stats.passes + weight tokens < engine.maxPasses) :
    ∃ reached, (engine.fixedPoint tokens stats).result = .ok reached ∧
      (engine.fixedPoint tokens stats).stats.passes + weight reached ≤
        stats.passes + weight tokens + 1 := by
  have budget : weight tokens < engine.maxPasses - stats.passes := by omega
  exact decreases.runPasses_converges _ tokens stats budget

/-- Passes are paid for by tokens, and what is not used up is left as weight. -/
theorem flattens_converges (forest : Forest) (first : Stats)
    (enough : first.passes + forest.tokens.length < engine.maxPasses) :
    ∃ flat last, engine.Flattens forest first flat last ∧
      last.passes + weight flat ≤ first.passes + forest.tokens.length := by
  induction forest generalizing first with
  | empty => exact ⟨[], first, .empty first, Nat.le_refl _⟩
  | single token plain rest ih =>
      rw [Forest.tokens, List.length_cons] at enough ⊢
      obtain ⟨flat, last, flattened, paid⟩ := ih first (by omega)
      have light := token.weight_le_one
      refine ⟨token :: flat, last, .single flattened, ?_⟩
      rw [weight]
      omega
  | group inner rest ihInner ihRest =>
      rw [Forest.tokens, List.length_append, List.length_cons, List.length_cons] at enough ⊢
      obtain ⟨flat, between, inside, paidInner⟩ := ihInner first (by omega)
      obtain ⟨interior, reached, paidFixed⟩ :=
        engine.fixedPoint_converges decreases flat between (by omega)
      have counted := (engine.fixedPoint flat between).stats.countGroup_passes
      obtain ⟨flatRest, last, later, paidRest⟩ :=
        ihRest (engine.fixedPoint flat between).stats.countGroup (by omega)
      have operandLight := weight_asOperand_le interior
      refine ⟨asOperand interior ++ flatRest, last, .group inside reached later, ?_⟩
      rw [weight_append]
      omega

theorem simplify_converges (tokens : List Token) (balanced : Balanced tokens)
    (enough : tokens.length + 1 ≤ engine.maxPasses) :
    ∃ result, (engine.simplify tokens .zero).result = .ok result ∧
      (engine.simplify tokens .zero).stats.passes + weight result ≤ tokens.length + 1 := by
  obtain ⟨forest, rfl⟩ := balanced.exists_forest
  have noPasses := Stats.zero_passes
  obtain ⟨flat, between, flattened, paid⟩ :=
    engine.flattens_converges decreases forest .zero (by omega)
  obtain ⟨result, reached, paidFixed⟩ :=
    engine.fixedPoint_converges decreases flat between (by omega)
  obtain ⟨succeeded, sameStats⟩ := engine.simplify_of_flattens flattened reached
  refine ⟨result, succeeded, ?_⟩
  rw [sameStats]
  omega

end Engine

/-- Balanced tokens are simplified within as many passes as there are tokens, and
one more.  Up to 499 of them never exhaust the passes allowed by default. -/
theorem balanced_converges (tokens : List Token) (balanced : Balanced tokens) :
    (∀ maxPasses, tokens.length + 1 ≤ maxPasses →
      ∃ result, ((Simplifier.mk maxPasses).simplifyTokens tokens).result = .ok result ∧
        ((Simplifier.mk maxPasses).simplifyTokens tokens).stats.passes ≤ tokens.length + 1) ∧
    (tokens.length ≤ 499 →
      ∃ result, (({} : Simplifier).simplifyTokens tokens).result = .ok result) := by
  have converges (simplifier : Simplifier) (enough : tokens.length + 1 ≤ simplifier.maxPasses) :=
    simplifier.engine.simplify_converges decreases_weight_catalog tokens balanced enough
  constructor
  · intro maxPasses enough
    obtain ⟨result, succeeded, paid⟩ := converges (.mk maxPasses) enough
    exact ⟨result, succeeded, Nat.le_trans (Nat.le_add_right _ _) paid⟩
  · intro short
    obtain ⟨result, succeeded, _⟩ := converges {} (Nat.succ_le_succ short)
    exact ⟨result, succeeded⟩

/-- `((A & ~~B)) |`, which is balanced and no expression -/
def danglingGroup : List Token :=
  [.opening, .opening, .letter .a, .conj, .neg, .neg, .letter .b, .closing, .closing, .disj]

theorem danglingGroup_converges :
    let allowed := (Simplifier.mk 11).simplifyTokens danglingGroup
    let byDefault := ({} : Simplifier).simplifyTokens danglingGroup
    let result := [.opening, .letter .a, .conj, .letter .b, .closing, .disj]
    Balanced danglingGroup ∧ danglingGroup.length = 10 ∧
      allowed.result = .ok result ∧ allowed.stats.passes = 4 ∧
      allowed.stats.passes ≤ danglingGroup.length + 1 ∧
      byDefault.result = .ok result := by
  intro allowed byDefault result
  have balanced : Balanced danglingGroup := by decide
  obtain ⟨within, withDefault⟩ := balanced_converges danglingGroup balanced
  obtain ⟨_, succeeded, paid⟩ := within 11 (by decide)
  obtain ⟨_, succeededByDefault⟩ := withDefault (by decide)
  have reached : allowed.result = .ok result := by rfl
  have reachedByDefault : byDefault.result = .ok result := by rfl
  cases reached.symm.trans succeeded
  cases reachedByDefault.symm.trans succeededByDefault
  exact ⟨balanced, rfl, succeeded, by rfl, paid, succeededByDefault⟩

end BoolSimplify
