/-
The strength of what an expression writes.

The scan for operators outside all groups finds the operator at the root of an
expression.  Groups hide their operators from it.
-/

import BoolSimplify.Expression
import BoolSimplify.Proofs.Balance

namespace BoolSimplify

variable {Atom : Type}

namespace Strength

theorem min_atom (strength : Strength) : min .atom strength = strength := by
  cases strength <;> rfl

theorem min_disj (strength : Strength) : min .disj strength = .disj := by
  cases strength <;> rfl

theorem eq_atom_of_le (strength : Strength) (tight : .atom ≤ strength) : strength = .atom := by
  cases strength with
  | atom => rfl
  | conj => exact absurd tight (by decide)
  | disj => exact absurd tight (by decide)

theorem eq_disj_of_le (strength : Strength) (loose : strength ≤ .disj) : strength = .disj := by
  cases strength with
  | disj => rfl
  | conj => exact absurd loose (by decide)
  | atom => exact absurd loose (by decide)

theorem ofDepth_plain (symbol : Symbol Atom) (rest : List (Symbol Atom))
    (plain : symbol.isParenthesis = false) :
    ofDepth 0 (symbol :: rest) = min (ofSymbol symbol) (ofDepth 0 rest) := by
  cases symbol with
  | opening => cases plain
  | closing => cases plain
  | conj => rfl
  | disj => rfl
  | neg => rfl
  | truth value => rfl
  | atom name => rfl

theorem ofDepth_enclosed (depth opened remaining : Nat) (symbols rest : List (Symbol Atom))
    (enclosed : symbols.foldl Unmatched.step ⟨0, opened⟩ = ⟨0, remaining⟩) :
    ofDepth (depth + opened + 1) (symbols ++ rest) = ofDepth (depth + remaining + 1) rest := by
  induction symbols generalizing opened with
  | nil =>
      rw [List.foldl_nil, Unmatched.mk.injEq] at enclosed
      rw [enclosed.2, List.nil_append]
  | cons symbol symbols ih =>
      cases symbol with
      | opening => exact ih (opened + 1) enclosed
      | closing =>
          cases opened with
          | zero =>
              rw [List.foldl_cons, foldl_step_eq_join] at enclosed
              simp only [Unmatched.step, Unmatched.join, Unmatched.mk.injEq] at enclosed
              omega
          | succ opened => exact ih opened enclosed
      | conj => exact ih opened enclosed
      | disj => exact ih opened enclosed
      | neg => exact ih opened enclosed
      | truth value => exact ih opened enclosed
      | atom name => exact ih opened enclosed

theorem ofDepth_group (inner rest : List (Symbol Atom)) (balanced : Balanced inner) :
    ofDepth 0 (.opening :: (inner ++ .closing :: rest)) = ofDepth 0 rest :=
  ofDepth_enclosed 0 0 0 inner (.closing :: rest) balanced

end Strength

namespace Expression

def loosest : {strength : Strength} → Expression Atom strength → Strength
  | _, conj _ _ => .conj
  | _, disj _ _ => .disj
  | _, clause conjunction => conjunction.loosest
  | _, truth _ | _, atom _ | _, neg _ | _, group _ | _, unary _ => .atom

theorem loosest_eq_root (expression : Expression Atom .disj) :
    expression.loosest = expression.root := by
  cases expression with
  | disj left right => rfl
  | clause conjunction => cases conjunction <;> rfl

theorem loosest_of_atom (operand : Expression Atom .atom) : operand.loosest = .atom := by
  cases operand <;> rfl

theorem loosest_ne_disj (conjunction : Expression Atom .conj) : conjunction.loosest ≠ .disj := by
  cases conjunction <;> exact Strength.noConfusion

theorem ofDepth_symbols {strength : Strength} (expression : Expression Atom strength)
    (rest : List (Symbol Atom)) :
    Strength.ofDepth 0 (expression.symbols ++ rest) =
      min expression.loosest (Strength.ofDepth 0 rest) := by
  induction expression generalizing rest with
  | truth value => rfl
  | atom name => rfl
  | neg operand ih =>
      rw [symbols, List.cons_append, Strength.ofDepth_plain _ _ rfl, ih, loosest_of_atom]
      exact Strength.min_atom _
  | group inner ih =>
      rw [symbols, List.cons_append, List.cons_append, List.append_assoc,
        List.singleton_append, Strength.ofDepth_group _ _ inner.balanced, loosest,
        Strength.min_atom]
  | unary operand ih =>
      rw [symbols, ih, loosest_of_atom]
      rfl
  | conj left right ihLeft ihRight =>
      rw [symbols, List.append_assoc, ihLeft, List.cons_append, Strength.ofDepth_plain _ _ rfl,
        ihRight, loosest_of_atom, Strength.min_atom, loosest, Strength.ofSymbol]
      cases leftLoosest : left.loosest with
      | disj => exact absurd leftLoosest left.loosest_ne_disj
      | conj => cases Strength.ofDepth 0 rest <;> rfl
      | atom => cases Strength.ofDepth 0 rest <;> rfl
  | clause conjunction ih => exact ih rest
  | disj left right ihLeft ihRight =>
      rw [symbols, List.append_assoc, ihLeft, List.cons_append, Strength.ofDepth_plain _ _ rfl,
        loosest, Strength.ofSymbol, Strength.min_disj, Strength.min_disj]
      cases left.loosest <;> rfl

theorem strength_symbols (expression : Expression Atom .disj) :
    Strength.of expression.symbols = expression.root := by
  have whole := expression.ofDepth_symbols []
  rw [List.append_nil] at whole
  rw [Strength.of, whole, Strength.ofDepth, ← loosest_eq_root]
  cases expression.loosest <;> rfl

end Expression

end BoolSimplify
