/-
Words of the rule notation.

A word is an identifier.  The mark `r#` in front of an identifier makes a word
of it that is never taken for a reserved one.
-/

import BoolSimplify.Text.Identifier

namespace BoolSimplify.RuleText

def identifier? : (chars : List Char) → Option (List Char × List Char)
  | [] => none
  | first :: rest =>
      if startsIdentifier first then
        some (first :: rest.takeWhile continuesIdentifier, rest.dropWhile continuesIdentifier)
      else none

def dropIdentifier (chars : List Char) : List Char :=
  ((identifier? chars).map Prod.snd).getD chars

def unmarkable : List String := ["_", "super", "self", "Self", "crate"]

def markedOrPlainWord? : (chars : List Char) → Option (String × List Char)
  | 'r' :: '#' :: rest =>
      match identifier? rest with
      | some (name, rest) =>
          if unmarkable.contains (String.ofList name) then none
          else some (String.ofList ('r' :: '#' :: name), rest)
      | none => none
  | chars =>
      match identifier? chars with
      | some (name, rest) => some (String.ofList name, rest)
      | none => none

/-- The beginnings that announce a quoted literal and never a word. -/
def quoteBeginnings : List String :=
  ["r\"", "r#\"", "r##", "b\"", "b'", "br\"", "br#", "c\"", "cr\"", "cr#"]

/-- The word at the front of `chars`, unless a quoted literal is announced. -/
def word? (chars : List Char) : Option (String × List Char) :=
  if quoteBeginnings.any (·.toList.isPrefixOf chars) then none else markedOrPlainWord? chars

end BoolSimplify.RuleText
