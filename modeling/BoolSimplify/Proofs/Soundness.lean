/-
Soundness of whole runs.

When single replacements leave every list read as it was, so do scans, passes and
runs with groups.  The statements are about all lists of tokens: one that is not
well formed is not made well formed either.
-/

import BoolSimplify.Proofs.Identity
import BoolSimplify.Proofs.Nesting

namespace BoolSimplify

/-! ### Runs of faithful rules -/

/-- Every replacement leaves a list read as it was and keeps its parentheses. -/
def Faithful (rules : List Rule) : Prop :=
  ∀ rule ∈ rules, ∀ first second, rule.Replaces first second →
    ReadAlike first second ∧ unmatched first = unmatched second

namespace Faithful

theorem rewrites {rules : List Rule} (faithful : Faithful rules) {count : Nat}
    {first last : List Token} (rewritten : Rewrites rules count first last) :
    ReadAlike first last ∧ unmatched first = unmatched last := by
  induction rewritten with
  | refl tokens => exact ⟨.refl tokens, rfl⟩
  | step member replaced _ ih =>
      obtain ⟨alike, sameParentheses⟩ := faithful _ member _ _ replaced
      exact ⟨alike.trans ih.1, sameParentheses.trans ih.2⟩

theorem apply {rule : Rule} (faithful : Faithful [rule]) (tokens : List Token) :
    ReadAlike tokens (rule.apply tokens).tokens :=
  (faithful.rewrites (rule.apply_rewrites tokens)).1

variable {engine : Engine} (faithful : Faithful engine.rules)

include faithful

theorem fixedPoint (tokens reached : List Token) (stats : Stats)
    (succeeded : (engine.fixedPoint tokens stats).result = .ok reached) :
    ReadAlike tokens reached ∧ unmatched tokens = unmatched reached := by
  obtain ⟨count, _, rewritten⟩ :=
    (engine.fixedPoint_settles tokens reached stats succeeded).rewrites
  exact faithful.rewrites rewritten

theorem flattens {forest : Forest} {first last : Stats} {flat : List Token}
    (flattened : engine.Flattens forest first flat last) :
    Interchangeable forest.tokens flat ∧ Balanced flat := by
  induction flattened with
  | empty stats => exact ⟨.refl [], .nil⟩
  | @single token plain rest first last flat later ih =>
      exact ⟨(Interchangeable.refl [token]).append ih.1, ih.2.cons plain⟩
  | @group inner rest first between last flat interior flatRest inside reached later ihInside
      ihLater =>
      obtain ⟨settledAlike, sameParentheses⟩ :=
        faithful.fixedPoint flat interior between reached
      have interiorBalanced : Balanced interior := sameParentheses.symm.trans ihInside.2
      have sameGroup := interchangeable_groups inner.balanced interiorBalanced
        (ihInside.1.readAlike.trans settledAlike)
      have sameOperand := sameGroup.trans (interchangeable_asOperand interiorBalanced)
      refine ⟨?_, interiorBalanced.asOperand.append ihLater.2⟩
      have both := sameOperand.append ihLater.1
      rwa [List.append_assoc] at both

theorem simplify (tokens result : List Token) (stats : Stats)
    (succeeded : (engine.simplify tokens stats).result = .ok result) :
    ReadAlike tokens result ∧ Balanced result := by
  obtain ⟨forest, flat, between, rfl, flattened, reached, _⟩ :=
    engine.flattens_of_simplify tokens stats result succeeded
  obtain ⟨sameFlat, flatBalanced⟩ := faithful.flattens flattened
  obtain ⟨settledAlike, sameParentheses⟩ := faithful.fixedPoint flat result between reached
  exact ⟨sameFlat.readAlike.trans settledAlike, sameParentheses.symm.trans flatBalanced⟩

end Faithful

/-! ### Runs of identities -/

theorem faithful_of_identities {rules : List Rule}
    (identities : ∀ rule ∈ rules, rule.IsIdentity) : Faithful rules := by
  intro rule member first second replaced
  have identity := identities rule member
  exact ⟨identity.readAlike replaced, replaced.unmatched_eq identity.unmatched_eq⟩

/-- Identities that do not bind looser than what they replace keep every well-formed
list well formed and equal in value: in one scan of one rule, and in every run of
any list of such rules that ends, with or without regard to groups. -/
theorem identities_sound (tokens : List Token) (wellFormed : WellFormed tokens) :
    (∀ rule : Rule, rule.IsIdentity → Equivalent tokens (rule.apply tokens).tokens) ∧
      ∀ engine : Engine, (∀ rule ∈ engine.rules, rule.IsIdentity) →
        ∀ (stats : Stats) (result : List Token),
          ((engine.simplify tokens stats).result = .ok result → Equivalent tokens result) ∧
            ((engine.fixedPoint tokens stats).result = .ok result →
              Equivalent tokens result) := by
  constructor
  · intro rule identity
    have faithful : Faithful [rule] := by
      apply faithful_of_identities
      intro other member
      rw [List.mem_singleton.mp member]
      exact identity
    exact (faithful.apply tokens).equivalent wellFormed
  · intro engine identities stats result
    have faithful := faithful_of_identities identities
    constructor
    · intro succeeded
      exact (faithful.simplify tokens result stats succeeded).1.equivalent wellFormed
    · intro succeeded
      exact (faithful.fixedPoint tokens result stats succeeded).1.equivalent wellFormed

/-- Absorption of a conjunction that stands without parentheses.  The catalog has
no such rule. -/
def bareAbsorption : Rule :=
  .mk .absorption [.x, .disj, .x, .conj, .y] [.x]

/-- `(A | A & B) & C` -/
def absorbable : List Token :=
  [.opening, .letter .a, .disj, .letter .a, .conj, .letter .b, .closing, .conj, .letter .c]

theorem bareAbsorption_sound :
    WellFormed absorbable ∧ bareAbsorption.IsIdentity ∧
      (Engine.simplify ⟨[bareAbsorption], 4⟩ absorbable .zero).result =
        .ok [Token.letter .a, .conj, Token.letter .c] ∧
      (Engine.fixedPoint ⟨[bareAbsorption], 4⟩ absorbable .zero).result =
        .ok [.opening, Token.letter .a, .closing, .conj, Token.letter .c] ∧
      Equivalent absorbable (bareAbsorption.apply absorbable).tokens ∧
      Equivalent absorbable [Token.letter .a, .conj, Token.letter .c] ∧
      Equivalent absorbable [.opening, Token.letter .a, .closing, .conj, Token.letter .c] := by
  have wellFormed : WellFormed absorbable := by decide
  have identity : bareAbsorption.IsIdentity := by decide +kernel
  have identities : ∀ rule ∈ [bareAbsorption], rule.IsIdentity := by
    intro rule member
    rw [List.mem_singleton.mp member]
    exact identity
  have sound := identities_sound absorbable wellFormed
  have runs := sound.2 ⟨[bareAbsorption], 4⟩ identities .zero
  exact ⟨wellFormed, identity, rfl, rfl, sound.1 bareAbsorption identity, (runs _).1 rfl,
    (runs _).2 rfl⟩

end BoolSimplify
