/-
What all rules of the catalog have in common.

Every rule but one is an identity of boolean algebra.  The other one drops a
second pair of parentheses around a run, whatever the run is.  Either way a
replacement keeps the reading of every list, and it lowers the number of symbols
other than `)`.
-/

import BoolSimplify.Proofs.Soundness
import Mathlib.Algebra.GroupWithZero.Nat

namespace BoolSimplify

variable {Atom : Type}

/-! ### Weights -/

/-- What a symbol weighs.  A group weighs one more than what it holds. -/
def Symbol.weight : Symbol Atom → Nat
  | .closing => 0
  | _ => 1

theorem Symbol.weight_le_one (symbol : Symbol Atom) : symbol.weight ≤ 1 := by
  cases symbol with
  | closing => exact Nat.zero_le 1
  | opening => exact Nat.le_refl 1
  | conj => exact Nat.le_refl 1
  | disj => exact Nat.le_refl 1
  | neg => exact Nat.le_refl 1
  | truth value => exact Nat.le_refl 1
  | atom name => exact Nat.le_refl 1

def weight : List (Symbol Atom) → Nat
  | [] => 0
  | symbol :: rest => symbol.weight + weight rest

theorem weight_append (left right : List (Symbol Atom)) :
    weight (left ++ right) = weight left + weight right := by
  induction left with
  | nil => rw [weight, List.nil_append, Nat.zero_add]
  | cons symbol rest ih => rw [List.cons_append, weight, weight, ih, Nat.add_assoc]

theorem weight_reverse (symbols : List (Symbol Atom)) :
    weight symbols.reverse = weight symbols := by
  induction symbols with
  | nil => rfl
  | cons symbol rest ih =>
      rw [List.reverse_cons, weight_append, ih, Nat.add_comm]
      rfl

theorem weight_eq_sum (symbols : List (Symbol Atom)) :
    weight symbols = (symbols.map Symbol.weight).sum := by
  induction symbols with
  | nil => rfl
  | cons symbol rest ih => rw [weight, ih, List.map_cons, List.sum_cons]

theorem Bindings.size_fill (bindings : Bindings) (size : List Token → Nat)
    (elementSize : Element → Nat)
    (append : ∀ left right, size (left ++ right) = size left + size right)
    (runSize : elementSize .run = 1) (elements : List Element)
    (same : ∀ element ∈ elements, element ≠ Element.run →
      size (element.expand bindings.image) = elementSize element) :
    size (bindings.fill elements) + elements.count Element.run =
      (elements.map elementSize).sum + elements.count Element.run * size bindings.run := by
  induction elements with
  | nil =>
      have twice := append [] []
      rw [List.nil_append] at twice
      rw [List.count_nil, Nat.zero_mul]
      exact Nat.left_eq_add.mp twice
  | cons element elements ih =>
      have later := ih (fun other member => same other (List.mem_cons_of_mem element member))
      rw [fill_cons, append, List.map_cons, List.sum_cons]
      by_cases isRun : element = Element.run
      · subst isRun
        have single : size (Element.run.expand bindings.image) = size bindings.run := rfl
        rw [List.count_cons_self, single, runSize, Nat.succ_mul]
        omega
      · rw [List.count_cons_of_ne isRun, same element List.mem_cons_self isRun]
        omega

theorem Bindings.expand_of_bound (bindings : Bindings) {elements : List Element}
    (bound : ∀ slot, .atom (.slot slot) ∈ elements → ∃ letter, bindings.letters slot = some letter)
    (element : Element) (member : element ∈ elements) (notRun : element ≠ Element.run) :
    ∃ token, element.expand bindings.image = [token] ∧ token.weight = element.weight := by
  cases element with
  | atom placeholder =>
      cases placeholder with
      | run => exact absurd rfl notRun
      | slot slot =>
          obtain ⟨letter, isLetter⟩ := bound slot member
          refine ⟨Token.letter letter, ?_, rfl⟩
          rw [Symbol.expand, image, isLetter]
          rfl
  | opening => exact ⟨.opening, rfl, rfl⟩
  | closing => exact ⟨.closing, rfl, rfl⟩
  | conj => exact ⟨.conj, rfl, rfl⟩
  | disj => exact ⟨.disj, rfl, rfl⟩
  | neg => exact ⟨.neg, rfl, rfl⟩
  | truth value => exact ⟨.truth value, rfl, rfl⟩

theorem Bindings.weight_fill (bindings : Bindings) (elements : List Element)
    (bound : ∀ slot, .atom (.slot slot) ∈ elements → ∃ letter, bindings.letters slot = some letter) :
    weight (bindings.fill elements) + elements.count Element.run =
      weight elements + elements.count Element.run * weight bindings.run := by
  rw [weight_eq_sum elements]
  apply bindings.size_fill weight Symbol.weight weight_append rfl elements
  intro element member notRun
  obtain ⟨token, expanded, sameWeight⟩ := bindings.expand_of_bound bound element member notRun
  rw [expanded, ← sameWeight]
  rfl

theorem Bindings.length_fill (bindings : Bindings) (elements : List Element)
    (bound : ∀ slot, .atom (.slot slot) ∈ elements → ∃ letter, bindings.letters slot = some letter) :
    (bindings.fill elements).length + elements.count Element.run =
      elements.length + elements.count Element.run * bindings.run.length := by
  have filled := bindings.size_fill List.length (fun _ => 1) (fun _ _ => List.length_append) rfl
    elements (by
      intro element member notRun
      obtain ⟨token, expanded, _⟩ := bindings.expand_of_bound bound element member notRun
      rw [expanded]
      rfl)
  rwa [List.map_const', List.sum_replicate_nat, Nat.mul_one] at filled

/-- A rule that has at most one run, brings no placeholder of its own, and weighs
less after than before. -/
structure Rule.Shrinks (rule : Rule) : Prop where
  oneRun : rule.pattern.count Element.run ≤ 1
  sameRuns : rule.replacement.count Element.run = rule.pattern.count Element.run
  bound : rule.SlotsBound
  lighter : weight rule.replacement < weight rule.pattern

instance (rule : Rule) : Decidable rule.Shrinks :=
  decidable_of_iff (rule.pattern.count Element.run ≤ 1 ∧
      rule.replacement.count Element.run = rule.pattern.count Element.run ∧ rule.SlotsBound ∧
      weight rule.replacement < weight rule.pattern)
    ⟨fun ⟨oneRun, sameRuns, bound, lighter⟩ => ⟨oneRun, sameRuns, bound, lighter⟩,
      fun shrinks => ⟨shrinks.oneRun, shrinks.sameRuns, shrinks.bound, shrinks.lighter⟩⟩

theorem Rule.Shrinks.weight_lt {rule : Rule} (shrinks : rule.Shrinks) {first second : List Token}
    (replaced : rule.Replaces first second) : weight second < weight first := by
  obtain ⟨before, after, bindings, written⟩ := replaced.writesOut shrinks.oneRun
  have patternWeight := bindings.weight_fill rule.pattern written.bound
  have replacementWeight := bindings.weight_fill rule.replacement
    (fun slot occurs => written.bound slot (shrinks.bound slot occurs))
  rw [shrinks.sameRuns] at replacementWeight
  have lighter := shrinks.lighter
  rw [written.first_eq, written.second_eq]
  simp only [weight_append]
  omega

/-! ### Rules of the catalog -/

theorem shrinks_of_catalog : ∀ rule ∈ catalog, rule.Shrinks := by
  decide +kernel

theorem decreases_weight_catalog : Decreases weight catalog :=
  fun rule member _ _ replaced => (shrinks_of_catalog rule member).weight_lt replaced

def Rule.DropsParentheses (rule : Rule) : Prop :=
  rule.pattern = [.opening, .opening, .run, .closing, .closing] ∧
    rule.replacement = [.opening, .run, .closing]

instance (rule : Rule) : Decidable rule.DropsParentheses :=
  inferInstanceAs (Decidable (_ ∧ _))

theorem identity_or_dropsParentheses :
    ∀ rule ∈ catalog, rule.IsIdentity ∨ rule.DropsParentheses := by
  decide +kernel

namespace Rule.DropsParentheses

variable {rule : Rule} (drops : rule.DropsParentheses)

include drops

theorem pattern_fill (bindings : Bindings) :
    bindings.fill rule.pattern =
      .opening :: .opening :: (bindings.run ++ [.closing, .closing]) := by
  rw [drops.1]
  rfl

theorem replacement_fill (bindings : Bindings) :
    bindings.fill rule.replacement = .opening :: (bindings.run ++ [.closing]) := by
  rw [drops.2]
  rfl

theorem readAlike {first second before after : List Token} {bindings : Bindings}
    (written : rule.WritesOut first second before after bindings) : ReadAlike first second := by
  have runBalanced := balanced_of_plain bindings.run written.plain
  have sameGroup := interchangeable_groups runBalanced.group runBalanced
    (readAlike_group runBalanced)
  have whole := sameGroup.readAlike_between before after
  rw [written.first_eq, written.second_eq, drops.pattern_fill, drops.replacement_fill]
  simpa only [List.cons_append, List.append_assoc, List.nil_append] using whole

end Rule.DropsParentheses

theorem faithful_catalog : Faithful catalog := by
  intro rule member first second replaced
  rcases identity_or_dropsParentheses rule member with identity | drops
  · exact ⟨identity.readAlike replaced, replaced.unmatched_eq identity.unmatched_eq⟩
  · obtain ⟨before, after, bindings, written⟩ :=
      replaced.writesOut (shrinks_of_catalog rule member).oneRun
    refine ⟨drops.readAlike written, replaced.unmatched_eq ?_⟩
    rw [drops.1, drops.2]
    rfl

end BoolSimplify
