/-
The order of the rules.

Rules are tried in the order of the catalog, and another order may end with other
tokens: two rules can want the same tokens, and neither gives them back.  The main
statement says what does not depend on the order.  Every order comes to an end
within the same budget, its result has the same reading, and no other order finds
anything left to replace in it.  Where no group is opened, all that overlaps are
contractions of literals, and every order ends with the same tokens.
-/

import BoolSimplify.Proofs.Contraction
import BoolSimplify.Proofs.Convergence
import BoolSimplify.Proofs.Stability
import Mathlib.Logic.Relation

namespace BoolSimplify

/-! ### Rules without parentheses -/

theorem Letter.mem_all (letter : Letter) : letter ∈ Letter.all := by
  cases letter <;> decide

theorem Rule.IsIdentity.replaces_fill {rule : Rule} (identity : rule.IsIdentity)
    (letters : Slot → Letter) (before after : List Token)
    (admitted : rule.strength.admits before.getLast? after.head? = true) :
    rule.Replaces (before ++ ((Bindings.ofLetters letters).fill rule.pattern ++ after))
      (before ++ ((Bindings.ofLetters letters).fill rule.replacement ++ after)) := by
  obtain ⟨reached, matched, sameReplacement⟩ := Bindings.extendAll_ofLetters letters rule.pattern
    rule.replacement after identity.pattern_noRun identity.replacement_noRun identity.bound
  have redex := (rule.redex_eq_some_iff before.getLast? _ ⟨reached, after⟩).mpr ⟨matched, admitted⟩
  rw [← sameReplacement]
  exact .intro before _ ⟨reached, after⟩ redex

theorem identity_of_no_opening {rule : Rule} (member : rule ∈ catalog)
    (noOpening : .opening ∉ rule.pattern) : rule.IsIdentity := by
  rcases identity_or_dropsParentheses rule member with identity | drops
  · exact identity
  · rw [drops.1] at noOpening
    exact absurd List.mem_cons_self noOpening

abbrev Bindings.constant (known : Letter) : Bindings :=
  .ofLetters fun _ => known

instance (strength : Strength) (consumed : List Token) (result : Literal) :
    Decidable (Contracts strength consumed result) :=
  decidable_of_iff
    ((∃ connective ∈ Connective.all, strength = connective.strength ∧
        ∃ left ∈ Literal.all, ∃ right ∈ Literal.all,
          consumed = left.tokens ++ connective.token :: right.tokens ∧
            connective.join? left right = some result) ∨
      (strength = .atom ∧ ∃ operand ∈ Literal.all,
        consumed = .neg :: operand.tokens ∧ operand.takeNegation = some result))
    (by
      constructor
      · rintro (⟨connective, _, rfl, left, _, right, _, rfl, joined⟩ | ⟨rfl, operand, _, rfl, taken⟩)
        · exact .join connective left right result joined
        · exact .negation operand result taken
      · intro contracts
        cases contracts with
        | join connective left right _ joined =>
            exact .inl ⟨connective, connective.mem_all, rfl, left, left.mem_all, right,
              right.mem_all, rfl, joined⟩
        | negation operand _ taken => exact .inr ⟨rfl, operand, operand.mem_all, rfl, taken⟩)

theorem slot_of_no_opening : ∀ rule ∈ catalog, .opening ∉ rule.pattern →
    ∀ slot, .atom (.slot slot) ∈ rule.pattern → slot = .x := by
  decide +kernel

theorem contracts_of_catalog : ∀ rule ∈ catalog, .opening ∉ rule.pattern →
    ∀ known ∈ Letter.all, ∃ result ∈ Literal.all,
      (Bindings.constant known).fill rule.replacement = result.tokens ∧
        Contracts rule.strength ((Bindings.constant known).fill rule.pattern) result := by
  decide +kernel

theorem catalog_joins : ∀ connective ∈ Connective.all, ∀ left ∈ Literal.all,
    ∀ right ∈ Literal.all, ∀ result ∈ connective.join? left right,
      ∃ rule ∈ catalog, .opening ∉ rule.pattern ∧ rule.strength = connective.strength ∧
        ∃ known ∈ Letter.all,
          (Bindings.constant known).fill rule.pattern =
              left.tokens ++ connective.token :: right.tokens ∧
            (Bindings.constant known).fill rule.replacement = result.tokens := by
  decide +kernel

theorem catalog_takes_negations : ∀ operand ∈ Literal.all, ∀ result ∈ operand.takeNegation,
    ∃ rule ∈ catalog, .opening ∉ rule.pattern ∧ rule.strength = .atom ∧
      ∃ known ∈ Letter.all,
        (Bindings.constant known).fill rule.pattern = .neg :: operand.tokens ∧
          (Bindings.constant known).fill rule.replacement = result.tokens := by
  decide +kernel

theorem Contracts.exists_rule {strength : Strength} {consumed : List Token} {result : Literal}
    (contracts : Contracts strength consumed result) :
    ∃ rule ∈ catalog, .opening ∉ rule.pattern ∧ rule.strength = strength ∧ ∃ known ∈ Letter.all,
      (Bindings.constant known).fill rule.pattern = consumed ∧
        (Bindings.constant known).fill rule.replacement = result.tokens := by
  cases contracts with
  | join connective left right _ joined =>
      exact catalog_joins connective connective.mem_all left left.mem_all right right.mem_all result
        joined
  | negation operand _ taken =>
      exact catalog_takes_negations operand operand.mem_all result taken

theorem Contraction.exists_replaces {first second : List Token}
    (contraction : Contraction first second) : ∃ rule ∈ catalog, rule.Replaces first second := by
  cases contraction with
  | intro before after contracts admitted =>
      obtain ⟨rule, member, noOpening, rfl, known, _, rfl, replacementEq⟩ := contracts.exists_rule
      rw [← replacementEq]
      exact ⟨rule, member,
        (identity_of_no_opening member noOpening).replaces_fill _ before after admitted⟩

theorem Contraction.of_replaces {rule : Rule} (member : rule ∈ catalog) {first second : List Token}
    (noOpening : .opening ∉ first) (replaced : rule.Replaces first second) :
    Contraction first second := by
  obtain ⟨before, after, bindings, written⟩ :=
    replaced.writesOut (shrinks_of_catalog rule member).oneRun
  have patternPlain : .opening ∉ rule.pattern := by
    intro opens
    rw [← List.count_pos_iff, ← bindings.count_opening_fill written.plain,
      List.count_pos_iff] at opens
    rw [written.first_eq] at noOpening
    exact noOpening (List.mem_append_right _ (List.mem_append_left _ opens))
  have identity := identity_of_no_opening member patternPlain
  have admitted := written.admitted
  obtain ⟨letters, firstEq, secondEq⟩ := written.exists_letters identity
  have onlyX (elements : List Element) (noRun : Element.run ∉ elements)
      (fromPattern : ∀ slot, .atom (.slot slot) ∈ elements → .atom (.slot slot) ∈ rule.pattern) :
      (Bindings.ofLetters letters).fill elements = (Bindings.constant (letters .x)).fill elements := by
    apply Bindings.fill_congr _ _ _ (fun member => absurd member noRun)
    intro slot occurs
    rw [slot_of_no_opening rule member patternPlain slot (fromPattern slot occurs)]
    rfl
  rw [onlyX _ identity.pattern_noRun (fun _ => id)] at firstEq
  rw [onlyX _ identity.replacement_noRun identity.bound] at secondEq
  obtain ⟨result, _, replacementEq, contracts⟩ :=
    contracts_of_catalog rule member patternPlain (letters .x) (letters .x).mem_all
  rw [firstEq, secondEq, replacementEq]
  exact .intro before after contracts admitted

/-! ### One result where no group is opened -/

theorem Rewrites.contractions {count : Nat} {first last : List Token}
    (rewritten : Rewrites catalog count first last) (noOpening : .opening ∉ first) :
    Relation.ReflTransGen Contraction first last := by
  induction rewritten with
  | refl tokens => exact .refl
  | step member replaced _ ih =>
      have fewer := replaced.count_opening_le member
      rw [List.count_eq_zero.mpr noOpening] at fewer
      have stillNone := List.count_eq_zero.mp (Nat.le_zero.mp fewer)
      exact .head (.of_replaces member noOpening replaced) (ih stillNone)

theorem eq_of_contractions {first last : List Token} (irreducible : Irreducible catalog first)
    (contracted : Relation.ReflTransGen Contraction first last) : last = first := by
  rcases contracted.cases_head with same | ⟨next, contraction, _⟩
  · exact same.symm
  · obtain ⟨rule, member, replaced⟩ := contraction.exists_replaces
    exact absurd replaced (irreducible.not_replaces member)

theorem irreducible_unique {tokens first second : List Token} {firstCount secondCount : Nat}
    (noOpening : .opening ∉ tokens) (toFirst : Rewrites catalog firstCount tokens first)
    (toSecond : Rewrites catalog secondCount tokens second)
    (firstIrreducible : Irreducible catalog first)
    (secondIrreducible : Irreducible catalog second) : first = second := by
  obtain ⟨last, fromFirst, fromSecond⟩ := Relation.church_rosser
    (fun _ left right toLeft toRight => by
      rcases Contraction.diamond toLeft toRight with rfl | ⟨last, fromLeft, fromRight⟩
      · exact ⟨left, .refl, .refl⟩
      · exact ⟨last, .single fromLeft, .single fromRight⟩)
    (toFirst.contractions noOpening) (toSecond.contractions noOpening)
  rw [← eq_of_contractions firstIrreducible fromFirst,
    ← eq_of_contractions secondIrreducible fromSecond]

/-! ### Other orders of the catalog -/

theorem weight_le_length {Atom : Type} (symbols : List (Symbol Atom)) :
    weight symbols ≤ symbols.length := by
  induction symbols with
  | nil => exact Nat.le_refl 0
  | cons symbol rest ih =>
      have light := symbol.weight_le_one
      rw [weight, List.length_cons]
      omega

/-- What rules of the catalog reach in any order within a budget that depends on the
number of tokens only. -/
theorem fixedPoint_of_included (rules : List Rule) (included : ∀ rule ∈ rules, rule ∈ catalog)
    (maxPasses : Nat) (tokens : List Token) (enough : tokens.length < maxPasses) :
    ∃ reached count, (Engine.fixedPoint ⟨rules, maxPasses⟩ tokens .zero).result = .ok reached ∧
      Rewrites catalog count tokens reached ∧ Irreducible rules reached := by
  have decreases : Decreases weight rules :=
    fun rule member => decreases_weight_catalog rule (included rule member)
  have noPasses := Stats.zero_passes
  have light := weight_le_length tokens
  obtain ⟨reached, succeeded, _⟩ := Engine.fixedPoint_converges ⟨rules, maxPasses⟩ decreases tokens
    .zero (by dsimp only; omega)
  have settles := Engine.fixedPoint_settles ⟨rules, maxPasses⟩ tokens reached .zero succeeded
  obtain ⟨count, _, rewritten⟩ := settles.rewrites
  exact ⟨reached, count, succeeded, rewritten.mono included,
    decreases.irreducible_of_stable reached settles.stable⟩

theorem fixedPoint_zero_of_irreducible (rules : List Rule) (maxPasses : Nat) (tokens : List Token)
    (irreducible : Irreducible rules tokens) (somePass : 0 < maxPasses) :
    (Engine.fixedPoint ⟨rules, maxPasses⟩ tokens .zero).result = .ok tokens :=
  (Engine.fixedPoint_of_irreducible ⟨rules, maxPasses⟩ tokens .zero irreducible somePass).1

/-- Whatever the order of the rules, a budget above the number of tokens is enough, the
results of two orders are read alike, and each order leaves the result of the other
as it is.  Where no group is opened, the results are the same tokens. -/
theorem fixedPoint_in_any_order (tokens : List Token) (rules : List Rule)
    (permuted : rules.Perm catalog) (maxPasses otherPasses : Nat)
    (enough : tokens.length < maxPasses) (otherEnough : tokens.length < otherPasses) :
    ∃ first second,
      (Engine.fixedPoint ⟨catalog, maxPasses⟩ tokens .zero).result = .ok first ∧
        (Engine.fixedPoint ⟨rules, otherPasses⟩ tokens .zero).result = .ok second ∧
        ReadAlike first second ∧
        (Engine.fixedPoint ⟨rules, otherPasses⟩ first .zero).result = .ok first ∧
        (Engine.fixedPoint ⟨catalog, maxPasses⟩ second .zero).result = .ok second ∧
        (.opening ∉ tokens → first = second) := by
  have included (rule : Rule) : rule ∈ rules ↔ rule ∈ catalog := permuted.mem_iff
  obtain ⟨first, firstCount, firstReached, toFirst, firstIrreducible⟩ :=
    fixedPoint_of_included catalog (fun _ => id) maxPasses tokens enough
  obtain ⟨second, secondCount, secondReached, toSecond, secondIrreducible⟩ :=
    fixedPoint_of_included rules (fun rule => (included rule).mp) otherPasses tokens otherEnough
  have secondForCatalog := secondIrreducible.mono fun rule => (included rule).mpr
  have firstForRules := firstIrreducible.mono fun rule => (included rule).mp
  refine ⟨first, second, firstReached, secondReached, ?_, ?_, ?_, ?_⟩
  · intro assignment
    rw [← (faithful_catalog.rewrites toFirst).1 assignment]
    exact (faithful_catalog.rewrites toSecond).1 assignment
  · exact fixedPoint_zero_of_irreducible rules otherPasses first firstForRules
      (Nat.zero_lt_of_lt otherEnough)
  · exact fixedPoint_zero_of_irreducible catalog maxPasses second secondForCatalog
      (Nat.zero_lt_of_lt enough)
  · intro noOpening
    exact irreducible_unique noOpening toFirst toSecond firstIrreducible secondForCatalog

/-- `~B & B & ~B | False | ~~A ) A & A foo`, where replacements overlap at the `B` -/
def overlapping : List Token :=
  [.neg, .letter .b, .conj, .letter .b, .conj, .neg, .letter .b, .disj, .truth false, .disj,
    .neg, .neg, .letter .a, .closing, .letter .a, .conj, .letter .a, .word "foo"]

theorem fixedPoint_in_reverse_order :
    catalog.reverse.Perm catalog ∧ overlapping.length < 19 ∧ overlapping.length < 30 ∧
      (∃ first second,
        (Engine.fixedPoint ⟨catalog, 19⟩ overlapping .zero).result = .ok first ∧
          (Engine.fixedPoint ⟨catalog.reverse, 30⟩ overlapping .zero).result = .ok second ∧
          ReadAlike first second ∧
          (Engine.fixedPoint ⟨catalog.reverse, 30⟩ first .zero).result = .ok first ∧
          (Engine.fixedPoint ⟨catalog, 19⟩ second .zero).result = .ok second ∧
          first = second) := by
  have permuted : catalog.reverse.Perm catalog := List.reverse_perm catalog
  have enough : overlapping.length < 19 := by decide
  have otherEnough : overlapping.length < 30 := by decide
  have noOpening : Symbol.opening ∉ overlapping := by decide
  obtain ⟨first, second, firstReached, secondReached, alike, firstStays, secondStays, same⟩ :=
    fixedPoint_in_any_order overlapping catalog.reverse permuted 19 30 enough otherEnough
  exact ⟨permuted, enough, otherEnough, first, second, firstReached, secondReached, alike,
    firstStays, secondStays, same noOpening⟩

/-- The catalog with its two distributions in the other order. -/
def catalogSwapped : List Rule :=
  catalog.take 17 ++ ((catalog.drop 17).take 2).reverse ++ catalog.drop 19

/-- `(A & B) | (A & C) | (B & A)` -/
def distributableTwice : List Token :=
  [.opening, .letter .a, .conj, .letter .b, .closing, .disj,
    .opening, .letter .a, .conj, .letter .c, .closing, .disj,
    .opening, .letter .b, .conj, .letter .a, .closing]

/-- Either distribution takes the group in the middle from the other one.  The order of
the two decides which of them finds its groups first. -/
theorem fixedPoint_depends_on_order :
    catalogSwapped.Perm catalog ∧
      (Engine.fixedPoint ⟨catalog, 500⟩ distributableTwice .zero).result =
        .ok [.letter .a, .conj, .opening, .letter .b, .disj, .letter .c, .closing, .disj,
          .opening, .letter .b, .conj, .letter .a, .closing] ∧
      (Engine.fixedPoint ⟨catalogSwapped, 500⟩ distributableTwice .zero).result =
        .ok [.opening, .letter .a, .conj, .letter .b, .closing, .disj,
          .letter .a, .conj, .opening, .letter .c, .disj, .letter .b, .closing] ∧
      (Engine.fixedPoint ⟨catalog, 500⟩ distributableTwice .zero).result ≠
        (Engine.fixedPoint ⟨catalogSwapped, 500⟩ distributableTwice .zero).result := by
  have reached : (Engine.fixedPoint ⟨catalog, 500⟩ distributableTwice .zero).result =
      .ok [.letter .a, .conj, .opening, .letter .b, .disj, .letter .c, .closing, .disj,
        .opening, .letter .b, .conj, .letter .a, .closing] := by rfl
  have reachedSwapped : (Engine.fixedPoint ⟨catalogSwapped, 500⟩ distributableTwice .zero).result =
      .ok [.opening, .letter .a, .conj, .letter .b, .closing, .disj,
        .letter .a, .conj, .opening, .letter .c, .disj, .letter .b, .closing] := by rfl
  have permuted : catalogSwapped.Perm catalog := by
    have swapped : ((catalog.drop 17).take 2).reverse.Perm ((catalog.drop 17).take 2) :=
      List.reverse_perm _
    exact (swapped.append_left (catalog.take 17)).append_right (catalog.drop 19)
  refine ⟨permuted, reached, reachedSwapped, ?_⟩
  rw [reached, reachedSwapped]
  intro same
  cases same

end BoolSimplify
