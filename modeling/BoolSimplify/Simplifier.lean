/-
Simplifying the text of an expression with the catalog.
-/

import BoolSimplify.Catalog
import BoolSimplify.Engine
import BoolSimplify.Token.Fragments

namespace BoolSimplify

def defaultMaxPasses : Nat := 500

/-- A simplifier is determined by the passes it allows for one expression,
counted over all groups. -/
structure Simplifier where
  maxPasses : Nat := defaultMaxPasses
  deriving DecidableEq, Repr

structure Simplification where
  input : String
  simplified : String
  stats : Stats
  deriving DecidableEq, Repr

namespace Simplification

def changed (simplification : Simplification) : Bool :=
  render (tokenize simplification.input) != simplification.simplified

def constant? (simplification : Simplification) : Option Bool :=
  if simplification.simplified = "True" then some true
  else if simplification.simplified = "False" then some false
  else none

end Simplification

namespace Simplifier

def engine (simplifier : Simplifier) : Engine := ⟨catalog, simplifier.maxPasses⟩

def simplifyTokens (simplifier : Simplifier) (tokens : List Token) : Outcome (List Token) :=
  simplifier.engine.simplify tokens .zero

def simplify (simplifier : Simplifier) (text : String) : Outcome Simplification :=
  (simplifier.simplifyTokens (tokenize text)).andThen fun tokens stats =>
    let simplified := render tokens
    ⟨.ok ⟨text, simplified, stats⟩, stats, [.expressionSimplified text simplified stats]⟩

end Simplifier

end BoolSimplify
