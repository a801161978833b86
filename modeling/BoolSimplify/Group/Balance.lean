/-
Matching parentheses in a whole list.

Parentheses are matched from left to right, each `)` with the nearest open `(`.
What is left over says how far a list is from being balanced.
-/

import BoolSimplify.Symbol

namespace BoolSimplify

variable {Atom : Type}

/-- The numbers of parentheses in a list that no other one in it matches.  All
unmatched `)` stand before all unmatched `(`. -/
structure Unmatched where
  closings : Nat
  openings : Nat
  deriving DecidableEq, Repr

namespace Unmatched

def zero : Unmatched := ⟨0, 0⟩

def step (before : Unmatched) : Symbol Atom → Unmatched
  | .opening => ⟨before.closings, before.openings + 1⟩
  | .closing =>
      match before.openings with
      | 0 => ⟨before.closings + 1, 0⟩
      | openings + 1 => ⟨before.closings, openings⟩
  | _ => before

end Unmatched

def unmatched (symbols : List (Symbol Atom)) : Unmatched :=
  symbols.foldl Unmatched.step .zero

def Balanced (symbols : List (Symbol Atom)) : Prop :=
  unmatched symbols = .zero

instance (symbols : List (Symbol Atom)) : Decidable (Balanced symbols) :=
  inferInstanceAs (Decidable (unmatched symbols = .zero))

/-- The groups that are closed from `position` on, when groups were opened before
at `opened`, the innermost first. -/
def groupsFrom : (position : Nat) → (opened : List Nat) → List (Symbol Atom) → List (Nat × Nat)
  | _, _, [] => []
  | position, opened, .opening :: rest => groupsFrom (position + 1) (position :: opened) rest
  | position, [], .closing :: rest => groupsFrom (position + 1) [] rest
  | position, start :: opened, .closing :: rest =>
      (start, position) :: groupsFrom (position + 1) opened rest
  | position, opened, _ :: rest => groupsFrom (position + 1) opened rest

/-- The groups of a list by the positions of their parentheses, in the order in
which they are closed. -/
def groups (symbols : List (Symbol Atom)) : List (Nat × Nat) :=
  groupsFrom 0 [] symbols

end BoolSimplify
