/-
The symbols of boolean notation.

A written expression is a flat list of symbols: punctuation, operators, truth
values and atoms.  Expressions over letters and words and the two sides of a
rule differ only in what an atom is, so the kind of atom is a parameter.

This file defines no reading or printing of text.
-/

namespace BoolSimplify

inductive Symbol (Atom : Type) where
  /-- `(` -/
  | opening
  /-- `)` -/
  | closing
  /-- `&`, conjunction -/
  | conj
  /-- `|`, disjunction -/
  | disj
  /-- `~`, negation -/
  | neg
  | truth (value : Bool)
  | atom (atom : Atom)
  deriving DecidableEq, Repr

namespace Symbol

variable {Atom : Type}

def isParenthesis : Symbol Atom → Bool
  | opening | closing => true
  | _ => false

def isAtomic : Symbol Atom → Bool
  | truth _ | atom _ => true
  | _ => false

/-- Replaces every atom by a list of symbols and keeps all other symbols. -/
def expand {Image : Type} (image : Atom → List (Symbol Image)) :
    Symbol Atom → List (Symbol Image)
  | opening => [opening]
  | closing => [closing]
  | conj => [conj]
  | disj => [disj]
  | neg => [neg]
  | truth value => [truth value]
  | atom a => image a

end Symbol

end BoolSimplify
