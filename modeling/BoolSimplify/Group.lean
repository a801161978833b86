/-
Groups in a flat list of symbols.

A group is a parenthesis together with its match.  The functions here find the
end of a group and recognise the lists that form a single operand, which may
stand anywhere without parentheses of their own.
-/

import BoolSimplify.Symbol

namespace BoolSimplify

variable {Atom : Type}

/-- The place in `symbols` of the `)` that brings `depth` open groups to none. -/
def closeFrom : (depth : Nat) → (symbols : List (Symbol Atom)) → Option Nat
  | _, [] => none
  | depth, .opening :: rest => (closeFrom (depth + 1) rest).map (· + 1)
  | depth, .closing :: rest =>
      if depth ≤ 1 then some 0 else (closeFrom (depth - 1) rest).map (· + 1)
  | depth, _ :: rest => (closeFrom depth rest).map (· + 1)

/-- The place of the `)` that matches the `(` at `start`.  There is none when the
symbol at `start` is not `(` or its group is never closed. -/
def matchingClose (symbols : List (Symbol Atom)) (start : Nat) : Option Nat :=
  match symbols.drop start with
  | .opening :: rest => (closeFrom 1 rest).map (start + 1 + ·)
  | _ => none

/-- A list forms a single operand when it is any number of `~` before one atomic
symbol or before one group that reaches to the end. -/
def isOperand : List (Symbol Atom) → Bool
  | .neg :: rest => isOperand rest
  | .opening :: rest => closeFrom 1 rest == some (rest.length - 1)
  | [symbol] => symbol.isAtomic
  | _ => false

def asOperand (symbols : List (Symbol Atom)) : List (Symbol Atom) :=
  if isOperand symbols then symbols else .opening :: symbols ++ [.closing]

end BoolSimplify
