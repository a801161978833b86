/-
Expressions with their structure, and their values.

Negation binds tighter than conjunction, and conjunction tighter than
disjunction.  An expression of a given strength is built from operands that bind
at least as tightly as its operator asks for, so that each is written in exactly
one way without further parentheses.
-/

import BoolSimplify.Rule.Strength

namespace BoolSimplify

/-- Expressions over `Atom` by the strength at which they are operands. -/
inductive Expression (Atom : Type) : Strength → Type where
  | truth (value : Bool) : Expression Atom .atom
  | atom (atom : Atom) : Expression Atom .atom
  | neg (operand : Expression Atom .atom) : Expression Atom .atom
  | group (inner : Expression Atom .disj) : Expression Atom .atom
  | unary (operand : Expression Atom .atom) : Expression Atom .conj
  | conj (left : Expression Atom .conj) (right : Expression Atom .atom) : Expression Atom .conj
  | clause (conjunction : Expression Atom .conj) : Expression Atom .disj
  | disj (left : Expression Atom .disj) (right : Expression Atom .conj) : Expression Atom .disj

namespace Expression

variable {Atom : Type}

def symbols : {strength : Strength} → Expression Atom strength → List (Symbol Atom)
  | _, truth value => [.truth value]
  | _, atom name => [.atom name]
  | _, neg operand => .neg :: operand.symbols
  | _, group inner => .opening :: inner.symbols ++ [.closing]
  | _, unary operand => operand.symbols
  | _, conj left right => left.symbols ++ .conj :: right.symbols
  | _, clause conjunction => conjunction.symbols
  | _, disj left right => left.symbols ++ .disj :: right.symbols

def value (assignment : Atom → Bool) :
    {strength : Strength} → Expression Atom strength → Bool
  | _, truth value => value
  | _, atom name => assignment name
  | _, neg operand => !operand.value assignment
  | _, group inner => inner.value assignment
  | _, unary operand => operand.value assignment
  | _, conj left right => left.value assignment && right.value assignment
  | _, clause conjunction => conjunction.value assignment
  | _, disj left right => left.value assignment || right.value assignment

def root : Expression Atom .disj → Strength
  | disj _ _ => .disj
  | clause (conj _ _) => .conj
  | clause (unary _) => .atom

end Expression

variable {Atom : Type}

/-- A list of symbols is well formed when it is how some expression is written. -/
def WellFormed (symbols : List (Symbol Atom)) : Prop :=
  ∃ expression : Expression Atom .disj, expression.symbols = symbols

/-- Two lists of symbols are equivalent when they write expressions that have the
same value under every assignment. -/
def Equivalent (left right : List (Symbol Atom)) : Prop :=
  ∃ first second : Expression Atom .disj,
    first.symbols = left ∧ second.symbols = right ∧
      ∀ assignment, first.value assignment = second.value assignment

end BoolSimplify
