/-
Reading text as fragments and tokens.

Reading never fails: what is not part of the notation comes out as words, in
the order of the text.
-/

import BoolSimplify.Text.Blank
import BoolSimplify.Token

namespace BoolSimplify

def isStandalone : Char → Bool
  | '(' | ')' | '&' | '|' | '~' => true
  | _ => false

def isRunChar (char : Char) : Bool :=
  !isBlank char && !isStandalone char

/-- The fragments of a list of characters.  White space ends a fragment and is
dropped; a run of other characters is one fragment, as long as it goes. -/
def fragmentsOf : List Char → List (List Char)
  | [] => []
  | char :: rest =>
      if isBlank char then fragmentsOf rest
      else if isRunChar char && rest.head?.any isRunChar then
        match fragmentsOf rest with
        | [] => [[char]]
        | run :: others => (char :: run) :: others
      else [char] :: fragmentsOf rest

def fragments (text : String) : List String :=
  (fragmentsOf text.toList).map String.ofList

def tokenize (text : String) : List Token :=
  (fragments text).map Token.ofFragment

end BoolSimplify
