/-
Elements of rules.

Both sides of a rule are written in the symbols of the expression language with
placeholders in place of names.
-/

import BoolSimplify.Symbol

namespace BoolSimplify

inductive Slot where
  | x | y | z
  deriving DecidableEq, Repr

inductive Placeholder where
  /-- Any letter; the same slot always stands for the same letter -/
  | slot (slot : Slot)
  /-- A run of one or more tokens without parentheses -/
  | run
  deriving DecidableEq, Repr

abbrev Element := Symbol Placeholder

namespace Element

@[match_pattern] abbrev x : Element := .atom (.slot .x)

@[match_pattern] abbrev y : Element := .atom (.slot .y)

@[match_pattern] abbrev z : Element := .atom (.slot .z)

@[match_pattern] abbrev run : Element := .atom .run

def text : Element → String
  | .opening => "("
  | .closing => ")"
  | .conj => "&"
  | .disj => "|"
  | .neg => "~"
  | .truth true => "True"
  | .truth false => "False"
  | x => "X"
  | y => "Y"
  | z => "Z"
  | run => "E"

end Element

end BoolSimplify
