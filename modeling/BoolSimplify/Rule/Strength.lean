/-
How tightly an expression binds.

Negation binds tighter than conjunction, and conjunction tighter than
disjunction.  The strength of a list of symbols is that of its loosest operator
outside all groups, and decides between which neighbours the list is an operand
that nothing takes apart.
-/

import BoolSimplify.Token

namespace BoolSimplify

inductive Strength where
  | disj | conj | atom
  deriving DecidableEq, Repr

namespace Strength

def rank : Strength → Nat
  | disj => 0
  | conj => 1
  | atom => 2

instance : LE Strength := ⟨fun left right => left.rank ≤ right.rank⟩

instance : LT Strength := ⟨fun left right => left.rank < right.rank⟩

instance (left right : Strength) : Decidable (left ≤ right) :=
  inferInstanceAs (Decidable (left.rank ≤ right.rank))

instance (left right : Strength) : Decidable (left < right) :=
  inferInstanceAs (Decidable (left.rank < right.rank))

instance : Min Strength := ⟨fun left right => if left ≤ right then left else right⟩

def ofSymbol {Atom : Type} : Symbol Atom → Strength
  | .disj => disj
  | .conj => conj
  | _ => atom

/-- The strength of `symbols` when `depth` groups are open before them.  A `)`
without a group to close changes nothing. -/
def ofDepth {Atom : Type} : (depth : Nat) → (symbols : List (Symbol Atom)) → Strength
  | _, [] => atom
  | depth, .opening :: rest => ofDepth (depth + 1) rest
  | depth, .closing :: rest => ofDepth (depth - 1) rest
  | 0, symbol :: rest => min (ofSymbol symbol) (ofDepth 0 rest)
  | depth + 1, _ :: rest => ofDepth (depth + 1) rest

def of {Atom : Type} (symbols : List (Symbol Atom)) : Strength :=
  ofDepth 0 symbols

/-- Whether an expression of this strength is complete between its neighbours.
A `~` before a conjunction would negate its first operand only, and a `&` on
either side of a disjunction would take one of its operands. -/
def admits (strength : Strength) (previous next : Option Token) : Bool :=
  match strength with
  | atom => true
  | conj => previous != some .neg
  | disj => previous != some .neg && previous != some .conj && next != some .conj

end Strength

end BoolSimplify
