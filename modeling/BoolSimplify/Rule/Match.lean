/-
Matching patterns against tokens.

A pattern is matched against the front of a list of tokens.  Slots bind letters
and the run placeholder binds tokens without parentheses; every other element
stands for the one token it is written as.
-/

import BoolSimplify.Rule.Element
import BoolSimplify.Token

namespace BoolSimplify

structure Bindings where
  letters : Slot → Option Letter
  /-- The tokens of the run, none while it is not bound -/
  run : List Token

namespace Bindings

def empty : Bindings := ⟨fun _ => none, []⟩

/-- Binds a slot to a letter.  A slot that already stands for another letter
cannot be bound. -/
def bind (bindings : Bindings) (slot : Slot) (letter : Letter) : Option Bindings :=
  match bindings.letters slot with
  | some bound => if bound = letter then some bindings else none
  | none =>
      some { bindings with
        letters := fun other => if other = slot then some letter else bindings.letters other }

def image (bindings : Bindings) : Placeholder → List Token
  | .slot slot => ((bindings.letters slot).map Token.letter).toList
  | .run => bindings.run

def fill (bindings : Bindings) (elements : List Element) : List Token :=
  elements.flatMap (Symbol.expand bindings.image)

end Bindings

structure Match where
  bindings : Bindings
  rest : List Token

def Element.literal? : Element → Option Token
  | .opening => some .opening
  | .closing => some .closing
  | .conj => some .conj
  | .disj => some .disj
  | .neg => some .neg
  | .truth value => some (.truth value)
  | .atom _ => none

def leadingRun (tokens : List Token) : List Token :=
  tokens.takeWhile (!·.isParenthesis)

/-- Extends a match by one element.  The run takes every token up to the next
parenthesis and is never shortened to let the rest of a pattern match. -/
def Match.extend (found : Match) : (element : Element) → Option Match
  | .atom (.slot slot) =>
      match found.rest with
      | .atom (.letter letter) :: rest =>
          (found.bindings.bind slot letter).map (⟨·, rest⟩)
      | _ => none
  | .atom .run =>
      let run := leadingRun found.rest
      if run = [] then none
      else some ⟨{ found.bindings with run := run }, found.rest.drop run.length⟩
  | literal =>
      match found.rest with
      | token :: rest =>
          if literal.literal? = some token then some ⟨found.bindings, rest⟩ else none
      | [] => none

def Match.extendAll (found : Match) : (pattern : List Element) → Option Match
  | [] => some found
  | element :: pattern => (found.extend element).bind (·.extendAll pattern)

def matchPrefix? (pattern : List Element) (tokens : List Token) : Option Match :=
  Match.extendAll ⟨.empty, tokens⟩ pattern

end BoolSimplify
