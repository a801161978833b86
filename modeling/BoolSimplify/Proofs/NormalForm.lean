/-
Results in which no rule is left to apply.

A fixed point is found by comparing tokens before and after a pass, and not by looking
for matches.  Where every rule takes more tokens than it gives, a pass that replaces
anything leaves fewer tokens, so that equal tokens tell that nothing was replaced.  The
main statement says that wherever a pattern occurs in a result, its neighbours keep it
from being replaced.
-/

import BoolSimplify.Proofs.Catalog
import BoolSimplify.Token.Fragments

namespace BoolSimplify

/-! ### Rules that shorten -/

/-- A match takes more tokens than what is written for it, wherever it is found. -/
def Rule.Shortens (rule : Rule) : Prop :=
  ∀ tokens found, rule.match? tokens = some found →
    (found.bindings.fill rule.replacement).length + found.rest.length < tokens.length

theorem Rule.Shortens.length_lt {rule : Rule} (shortens : rule.Shortens)
    {first second : List Token} (replaced : rule.Replaces first second) :
    second.length < first.length := by
  cases replaced with
  | intro before tokens found redex =>
      have matched := ((rule.redex_eq_some_iff _ tokens found).mp redex).1
      have fewer := shortens tokens found matched
      simp only [List.length_append]
      omega

theorem decreases_length {rules : List Rule} (shortens : ∀ rule ∈ rules, rule.Shortens) :
    Decreases List.length rules :=
  fun rule member _ _ replaced => (shortens rule member).length_lt replaced

theorem Rule.Shrinks.shortens {rule : Rule} (shrinks : rule.Shrinks)
    (shorter : rule.replacement.length < rule.pattern.length) : rule.Shortens := by
  intro tokens found matched
  have consumed : tokens = found.bindings.fill rule.pattern ++ found.rest :=
    Match.extendAll_fill _ found rule.pattern matched shrinks.oneRun
  have bound := Match.extendAll_binds _ found rule.pattern matched
  have taken := found.bindings.length_fill rule.pattern bound
  have given := found.bindings.length_fill rule.replacement
    (fun slot occurs => bound slot (shrinks.bound slot occurs))
  rw [shrinks.sameRuns] at given
  rw [consumed, List.length_append]
  omega

theorem shorter_of_catalog : ∀ rule ∈ catalog, rule.replacement.length < rule.pattern.length := by
  decide +kernel

theorem shortens_of_catalog : ∀ rule ∈ catalog, rule.Shortens :=
  fun rule member => (shrinks_of_catalog rule member).shortens (shorter_of_catalog rule member)

theorem decreases_length_catalog : Decreases List.length catalog :=
  decreases_length shortens_of_catalog

/-! ### Normal forms -/

/-- Wherever the pattern of a rule occurs, one of its neighbours binds tighter than the
pattern does. -/
def NormalForm (rules : List Rule) (tokens : List Token) : Prop :=
  ∀ rule ∈ rules, ∀ start stop, (start, stop) ∈ rule.occurrences tokens →
    rule.strength.admits (tokens.take start).getLast? tokens[stop]? = false

theorem Rule.match_of_mem_occurrences {rule : Rule} {tokens : List Token} {start stop : Nat}
    (occurs : (start, stop) ∈ rule.occurrences tokens) :
    ∃ found, rule.match? (tokens.drop start) = some found ∧
      found.rest.head? = tokens[stop]? := by
  obtain ⟨place, _, isPlace⟩ := List.mem_filterMap.mp occurs
  obtain ⟨found, matched, same⟩ := Option.map_eq_some_iff.mp isPlace
  obtain ⟨samePlace, sameStop⟩ := Prod.mk.inj same
  rw [samePlace] at matched
  refine ⟨found, matched, ?_⟩
  obtain ⟨token, consumed, behind⟩ := rule.match_rest _ found matched
  have split : tokens = (tokens.take start ++ token :: consumed) ++ found.rest := by
    rw [List.append_assoc, List.cons_append, ← behind, List.take_append_drop]
  generalize tokens.take start ++ token :: consumed = front at split
  rw [← sameStop, split, List.length_append, Nat.add_sub_cancel, ← List.head?_drop,
    List.drop_left]

theorem Irreducible.normalForm {rules : List Rule} {tokens : List Token}
    (irreducible : Irreducible rules tokens) : NormalForm rules tokens := by
  intro rule member start stop occurs
  obtain ⟨found, matched, next⟩ := rule.match_of_mem_occurrences occurs
  have noRedex := irreducible rule member _ _ (List.take_append_drop start tokens)
  rw [← next, ← Bool.not_eq_true]
  intro admitted
  have redex := (rule.redex_eq_some_iff _ _ found).mpr ⟨matched, admitted⟩
  cases noRedex.symm.trans redex

namespace Engine

/-- When every match takes more tokens than are written for it, as in the catalog, a
result is a normal form, of tokens as they are and of tokens with their groups. -/
theorem results_normal :
    (∀ rule ∈ catalog, rule.Shortens) ∧
      ∀ engine : Engine, (∀ rule ∈ engine.rules, rule.Shortens) →
        ∀ (tokens result : List Token) (stats : Stats),
          ((engine.fixedPoint tokens stats).result = .ok result →
            NormalForm engine.rules result) ∧
          ((engine.simplify tokens stats).result = .ok result →
            NormalForm engine.rules result) := by
  refine ⟨shortens_of_catalog, ?_⟩
  intro engine shortens tokens result stats
  have normal (flat : List Token) (between : Stats)
      (reached : (engine.fixedPoint flat between).result = .ok result) :
      NormalForm engine.rules result := by
    have settles := engine.fixedPoint_settles flat result between reached
    have decreases := decreases_length shortens
    exact (decreases.irreducible_of_stable result settles.stable).normalForm
  refine ⟨normal tokens stats, ?_⟩
  intro succeeded
  obtain ⟨forest, flat, between, _, _, reached, _⟩ :=
    engine.flattens_of_simplify tokens stats result succeeded
  exact normal flat between reached

theorem results_normal_between :
    (∀ rule ∈ bareAbsorption :: catalog, rule.Shortens) ∧
      (fixedPoint ⟨bareAbsorption :: catalog, 4⟩ (tokenize "A & B | B & C & C") .zero).result =
        .ok (tokenize "A & B | B & C") ∧
      (simplify ⟨bareAbsorption :: catalog, 4⟩ (tokenize "(~~A) & B | B & C") .zero).result =
        .ok (tokenize "A & B | B & C") ∧
      bareAbsorption.occurrences (tokenize "A & B | B & C") = [(2, 7)] ∧
      NormalForm (bareAbsorption :: catalog) (tokenize "A & B | B & C") := by
  have bareShortens : bareAbsorption.Shortens := Rule.Shrinks.shortens (by decide) (by decide)
  have shortens : ∀ rule ∈ bareAbsorption :: catalog, rule.Shortens :=
    List.forall_mem_cons.mpr ⟨bareShortens, results_normal.1⟩
  have reached : (fixedPoint ⟨bareAbsorption :: catalog, 4⟩ (tokenize "A & B | B & C & C")
      .zero).result = .ok (tokenize "A & B | B & C") := by rfl
  have succeeded : (simplify ⟨bareAbsorption :: catalog, 4⟩ (tokenize "(~~A) & B | B & C")
      .zero).result = .ok (tokenize "A & B | B & C") := by rfl
  have normal := results_normal.2 ⟨bareAbsorption :: catalog, 4⟩ shortens
  exact ⟨shortens, reached, succeeded, by decide +kernel, (normal _ _ .zero).2 succeeded⟩

end Engine

end BoolSimplify
