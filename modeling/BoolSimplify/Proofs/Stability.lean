/-
Simplifying a result again.

A run over its own result finds every group as it would put it back, and nothing
to replace anywhere.  It uses one pass for each group and one for the top level,
which the run before could not do with less: it had at least as many groups.
-/

import BoolSimplify.Proofs.Arrangement
import BoolSimplify.Proofs.Preservation

namespace BoolSimplify

/-! ### Groups after a run -/

def Settled (rules : List Rule) (inner : List Token) : Prop :=
  Irreducible rules inner ∧ isOperand inner = false

theorem not_irreducible_letter_group (before after : List Token) (letter : Letter) :
    ¬Irreducible catalog (before ++ .opening :: ([.letter letter] ++ .closing :: after)) := by
  intro irreducible
  have member : Rule.mk .parenthesisCleanup [.opening, .x, .closing] [.x] ∈ catalog := by decide
  have noRedex := irreducible _ member before _ rfl
  cases noRedex

theorem settled_of_irreducible {tokens : List Token} (irreducible : Irreducible catalog tokens)
    (each : EachGroup GroupContents tokens) : EachGroup (Settled catalog) tokens := by
  intro before inner after split balanced
  have contents := each before inner after split balanced
  rw [split] at irreducible
  cases contents with
  | settled innerIrreducible notOperand => exact ⟨innerIrreducible, notOperand⟩
  | disjunction left right => exact ⟨irreducible.of_group, rfl⟩
  | letter letter => exact absurd irreducible (not_irreducible_letter_group before after letter)

/-- A group is put back with parentheses only where they make it settled. -/
theorem settled_asOperand {rules : List Rule} {interior : List Token}
    (balanced : Balanced interior) (irreducible : Irreducible rules interior)
    (settled : EachGroup (Settled rules) interior) :
    EachGroup (Settled rules) (asOperand interior) := by
  unfold asOperand
  by_cases single : isOperand interior = true
  · rw [if_pos single]
    exact settled
  · rw [if_neg single]
    exact .group balanced ⟨irreducible, Bool.eq_false_iff.mpr single⟩ settled

namespace Simplifier

variable (simplifier : Simplifier)

theorem irreducible_of_fixedPoint (tokens reached : List Token) (stats : Stats)
    (succeeded : (simplifier.engine.fixedPoint tokens stats).result = .ok reached) :
    Irreducible catalog reached :=
  decreases_weight_catalog.irreducible_of_stable reached
    (simplifier.engine.fixedPoint_settles tokens reached stats succeeded).stable

/-- In between, distribution may have made groups that are not settled. -/
theorem settled_of_fixedPoint (tokens reached : List Token) (stats : Stats)
    (succeeded : (simplifier.engine.fixedPoint tokens stats).result = .ok reached)
    (settled : EachGroup (Settled catalog) tokens) : EachGroup (Settled catalog) reached := by
  obtain ⟨count, _, rewritten⟩ :=
    (simplifier.engine.fixedPoint_settles tokens reached stats succeeded).rewrites
  have initially : EachGroup GroupContents tokens :=
    settled.mono fun _ holds => .settled holds.1 holds.2
  have each := rewritten.preserves (EachGroup GroupContents)
    (fun rule member first second replaced held => held.replaces member replaced) initially
  exact settled_of_irreducible
    (simplifier.irreducible_of_fixedPoint tokens reached stats succeeded) each

variable {simplifier}

theorem settled_of_flattens {forest : Forest} {first last : Stats} {flat : List Token}
    (flattened : simplifier.engine.Flattens forest first flat last) :
    EachGroup (Settled catalog) flat := by
  have faithful : Faithful simplifier.engine.rules := faithful_catalog
  induction flattened with
  | empty stats => exact .of_no_opening List.not_mem_nil
  | @single token plain rest first last flat later ih =>
      have noOpening : .opening ∉ [token] := by
        intro member
        rw [← List.mem_singleton.mp member] at plain
        cases plain
      have tokenBalanced : Balanced [token] := Balanced.nil.cons plain
      exact .append tokenBalanced (.of_no_opening noOpening) ih
  | @group inner rest first between last flat interior flatRest inside reached later ihInside
      ihLater =>
      have interiorBalanced : Balanced interior :=
        (faithful.fixedPoint flat interior between reached).2.symm.trans (faithful.flattens inside).2
      have irreducible := simplifier.irreducible_of_fixedPoint flat interior between reached
      have settled := simplifier.settled_of_fixedPoint flat interior between reached ihInside
      exact .append interiorBalanced.asOperand (settled_asOperand interiorBalanced irreducible settled)
        ihLater

end Simplifier

/-! ### Groups pay for passes -/

theorem Rule.count_opening_le : ∀ rule ∈ catalog,
    rule.replacement.count .opening ≤ rule.pattern.count .opening := by
  decide +kernel

theorem Rule.Replaces.count_opening_le {rule : Rule} (member : rule ∈ catalog)
    {first second : List Token} (replaced : rule.Replaces first second) :
    second.count .opening ≤ first.count .opening := by
  obtain ⟨before, after, bindings, written⟩ :=
    replaced.writesOut (shrinks_of_catalog rule member).oneRun
  have fewer := rule.count_opening_le member
  rw [written.first_eq, written.second_eq]
  simp only [List.count_append, bindings.count_opening_fill written.plain]
  omega

theorem count_opening_asOperand_le (tokens : List Token) :
    (asOperand tokens).count .opening ≤ tokens.count .opening + 1 := by
  unfold asOperand
  split
  · exact Nat.le_succ _
  · simp

theorem lifts_count_opening :
    Lifts fun first second => second.count .opening ≤ first.count .opening where
  refl tokens := Nat.le_refl _
  trans earlier later := Nat.le_trans later earlier
  append left right := by
    rw [List.count_append, List.count_append]
    exact Nat.add_le_add left right
  asOperand tokens := by
    rw [List.cons_append, List.count_cons_self, List.count_append]
    exact count_opening_asOperand_le tokens

theorem Engine.fixedPoint_passes_le (engine : Engine) (tokens reached : List Token) (stats : Stats)
    (succeeded : (engine.fixedPoint tokens stats).result = .ok reached) :
    (engine.fixedPoint tokens stats).stats.passes ≤ engine.maxPasses := by
  have bounded := runPasses_passes_le engine.rules (engine.maxPasses - stats.passes) tokens stats
  have budget : engine.maxPasses - stats.passes ≠ 0 := by
    intro exhausted
    rw [fixedPoint, exhausted] at succeeded
    cases succeeded
  change (engine.fixedPoint tokens stats).stats.passes ≤ _ at bounded
  omega

theorem Forest.count_opening_single (token : Token) (plain : token.isParenthesis = false)
    (rest : Forest) :
    (single token plain rest).tokens.count .opening = rest.tokens.count .opening := by
  apply List.count_cons_of_ne
  rintro rfl
  cases plain

theorem Forest.count_opening_group (inner rest : Forest) :
    (group inner rest).tokens.count .opening =
      inner.tokens.count .opening + 1 + rest.tokens.count .opening := by
  have notOpening : (Symbol.closing : Token) ≠ .opening := by decide
  rw [tokens, List.count_append, List.count_cons_self, List.count_cons_of_ne notOpening]

namespace Simplifier

variable {simplifier : Simplifier}

theorem count_opening_of_fixedPoint (tokens reached : List Token) (stats : Stats)
    (succeeded : (simplifier.engine.fixedPoint tokens stats).result = .ok reached) :
    reached.count .opening ≤ tokens.count .opening := by
  exact lifts_count_opening.fixedPoint
    (fun _ member _ _ replaced => replaced.count_opening_le member) tokens reached stats succeeded

theorem count_opening_of_flattens {forest : Forest} {first last : Stats} {flat : List Token}
    (flattened : simplifier.engine.Flattens forest first flat last) :
    flat.count .opening ≤ forest.tokens.count .opening ∧
      first.passes + forest.tokens.count .opening ≤ last.passes := by
  constructor
  · exact lifts_count_opening.flattens
      (fun _ member _ _ replaced => replaced.count_opening_le member) flattened
  · induction flattened with
    | empty stats => exact Nat.le_refl _
    | @single token plain rest first last flat later ih =>
        rw [Forest.count_opening_single]
        exact ih
    | @group inner rest first between last flat interior flatRest inside reached later ihInside
        ihLater =>
        have onePass :=
          (simplifier.engine.fixedPoint_settles flat interior between reached).passes_lt
        change (simplifier.engine.fixedPoint flat between).stats.passes + _ ≤ _ at ihLater
        rw [Forest.count_opening_group]
        omega

end Simplifier

/-! ### Runs on settled tokens -/

namespace Engine

variable (engine : Engine)

theorem fixedPoint_of_irreducible (tokens : List Token) (stats : Stats)
    (irreducible : Irreducible engine.rules tokens) (enough : stats.passes < engine.maxPasses) :
    (engine.fixedPoint tokens stats).result = .ok tokens ∧
      (engine.fixedPoint tokens stats).stats = stats.countPass 0 := by
  obtain ⟨budget, budgetEq⟩ := Nat.exists_eq_add_of_lt enough
  have left : engine.maxPasses - stats.passes = budget + 1 := by omega
  rw [fixedPoint, left]
  exact runPasses_of_irreducible engine.rules budget tokens stats irreducible

/-- Where every group is settled, a run puts each back as it was and replaces nothing. -/
theorem flattens_settled (forest : Forest) (first : Stats)
    (settled : EachGroup (Settled engine.rules) forest.tokens)
    (enough : first.passes + forest.tokens.count .opening ≤ engine.maxPasses) :
    ∃ last, engine.Flattens forest first forest.tokens last ∧
      last.passes = first.passes + forest.tokens.count .opening ∧
      last.replacements = first.replacements := by
  induction forest generalizing first with
  | empty => exact ⟨first, .empty first, rfl, rfl⟩
  | single token plain rest ih =>
      rw [Forest.count_opening_single] at enough ⊢
      have restSettled : EachGroup (Settled engine.rules) rest.tokens := by
        refine EachGroup.of_infix [token] rest.tokens [] ?_
        rwa [List.append_nil]
      obtain ⟨last, flattened, passesEq, replacementsEq⟩ := ih first restSettled enough
      exact ⟨last, .single flattened, passesEq, replacementsEq⟩
  | group inner rest ihInner ihRest =>
      rw [Forest.count_opening_group] at enough ⊢
      have innerSettled : EachGroup (Settled engine.rules) inner.tokens :=
        EachGroup.of_infix [.opening] inner.tokens (.closing :: rest.tokens) settled
      have restSettled : EachGroup (Settled engine.rules) rest.tokens := by
        refine EachGroup.of_infix (.opening :: inner.tokens ++ [.closing]) rest.tokens [] ?_
        simpa only [Forest.tokens, List.append_nil, List.append_assoc, List.singleton_append]
          using settled
      obtain ⟨irreducible, notOperand⟩ := settled [] inner.tokens rest.tokens rfl inner.balanced
      obtain ⟨between, inside, insidePasses, insideReplacements⟩ :=
        ihInner first innerSettled (by omega)
      obtain ⟨reached, counted⟩ :=
        engine.fixedPoint_of_irreducible inner.tokens between irreducible (by omega)
      have onePass : (between.countPass 0).countGroup.passes = between.passes + 1 := rfl
      have noReplacement : (between.countPass 0).countGroup.replacements = between.replacements := rfl
      obtain ⟨last, later, laterPasses, laterReplacements⟩ :=
        ihRest (between.countPass 0).countGroup restSettled (by omega)
      rw [← counted] at later
      have sameGroup : asOperand inner.tokens ++ rest.tokens = (Forest.group inner rest).tokens := by
        rw [asOperand, notOperand, if_neg Bool.false_ne_true, Forest.tokens, List.append_assoc,
          List.singleton_append]
      have whole := Flattens.group inside reached later
      rw [sameGroup] at whole
      exact ⟨last, whole, by omega, by omega⟩

theorem simplify_settled (tokens : List Token) (first : Stats) (balanced : Balanced tokens)
    (irreducible : Irreducible engine.rules tokens)
    (settled : EachGroup (Settled engine.rules) tokens)
    (enough : first.passes + tokens.count .opening + 1 ≤ engine.maxPasses) :
    (engine.simplify tokens first).result = .ok tokens ∧
      (engine.simplify tokens first).stats.replacements = first.replacements := by
  obtain ⟨forest, rfl⟩ := balanced.exists_forest
  obtain ⟨between, flattened, passesEq, replacementsEq⟩ :=
    engine.flattens_settled forest first settled (by omega)
  obtain ⟨reached, counted⟩ :=
    engine.fixedPoint_of_irreducible forest.tokens between irreducible (by omega)
  obtain ⟨succeeded, sameStats⟩ := engine.simplify_of_flattens flattened reached
  refine ⟨succeeded, ?_⟩
  rw [sameStats, counted]
  exact replacementsEq

end Engine

namespace Simplifier

variable (simplifier : Simplifier)

theorem simplifyTokens_again (tokens result : List Token)
    (succeeded : (simplifier.simplifyTokens tokens).result = .ok result) :
    (simplifier.simplifyTokens result).result = .ok result ∧
      (simplifier.simplifyTokens result).stats.replacements = 0 := by
  have faithful : Faithful simplifier.engine.rules := faithful_catalog
  have resultBalanced := (faithful.simplify tokens result .zero succeeded).2
  obtain ⟨forest, flat, between, rfl, flattened, reached, _⟩ :=
    simplifier.engine.flattens_of_simplify tokens .zero result succeeded
  have irreducible := simplifier.irreducible_of_fixedPoint flat result between reached
  have settled := simplifier.settled_of_fixedPoint flat result between reached
    (settled_of_flattens flattened)
  obtain ⟨fewerGroups, groupPasses⟩ := count_opening_of_flattens flattened
  have fewer := count_opening_of_fixedPoint flat result between reached
  have onePass := (simplifier.engine.fixedPoint_settles flat result between reached).passes_lt
  have within := simplifier.engine.fixedPoint_passes_le flat result between reached
  have noPasses := Stats.zero_passes
  exact simplifier.engine.simplify_settled result .zero resultBalanced irreducible settled
    (by omega)

/-- A result is its own result, found without a replacement and within the same
budget.  This holds for tokens that are no expression as well, and for texts. -/
theorem simplify_stable :
    (∀ tokens result, (simplifier.simplifyTokens tokens).result = .ok result →
      (simplifier.simplifyTokens result).result = .ok result ∧
        (simplifier.simplifyTokens result).stats.replacements = 0) ∧
    ∀ text simplification, (simplifier.simplify text).result = .ok simplification →
      ∃ again, (simplifier.simplify simplification.simplified).result = .ok again ∧
        again.simplified = simplification.simplified := by
  refine ⟨simplifier.simplifyTokens_again, ?_⟩
  intro text simplification succeeded
  obtain ⟨tokens, found, rendered⟩ := simplifier.simplify_eq_ok text simplification succeeded
  have foundAgain : (simplifier.simplifyTokens (tokenize (render tokens))).result = .ok tokens := by
    rw [simplifier.tokenize_render_simplified text tokens found]
    exact (simplifier.simplifyTokens_again _ tokens found).1
  rw [rendered]
  exact simplifier.simplify_of_tokens (render tokens) tokens foundAgain

theorem simplify_stable_distributed :
    ((Simplifier.mk 4).simplifyTokens (tokenize "(A & B) | (A & C) |")).result =
        .ok (tokenize "A & (B | C) |") ∧
      ((Simplifier.mk 4).simplify "(A & B) | (A & C) |").result =
        .ok ⟨"(A & B) | (A & C) |", "A & (B | C) |", ⟨4, 1, 2⟩⟩ ∧
      ((Simplifier.mk 4).simplifyTokens (tokenize "A & (B | C) |")).result =
        .ok (tokenize "A & (B | C) |") ∧
      ∃ again, ((Simplifier.mk 4).simplify "A & (B | C) |").result = .ok again ∧
        again.simplified = "A & (B | C) |" := by
  have tokensSucceeded :
      ((Simplifier.mk 4).simplifyTokens (tokenize "(A & B) | (A & C) |")).result =
        .ok (tokenize "A & (B | C) |") := by rfl
  have textSucceeded : ((Simplifier.mk 4).simplify "(A & B) | (A & C) |").result =
      .ok ⟨"(A & B) | (A & C) |", "A & (B | C) |", ⟨4, 1, 2⟩⟩ := by rfl
  have stable := simplify_stable (.mk 4)
  have tokensAgain := (stable.1 _ _ tokensSucceeded).1
  have textAgain := stable.2 _ _ textSucceeded
  dsimp only at textAgain
  exact ⟨tokensSucceeded, textSucceeded, tokensAgain, textAgain⟩

end Simplifier

end BoolSimplify
