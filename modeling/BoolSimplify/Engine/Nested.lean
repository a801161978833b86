/-
Simplifying by recursion on the structure of groups.

The engine reads tokens from left to right and keeps the open groups itself.
Here the groups are given as structure, and simplifying a group means to simplify
what it holds first.  Only passes are reported, because a structure has no
positions.
-/

import BoolSimplify.Engine

namespace BoolSimplify

inductive Forest where
  | empty
  | single (token : Token) (plain : token.isParenthesis = false) (rest : Forest)
  | group (inner rest : Forest)
  deriving DecidableEq, Repr

def Forest.tokens : Forest → List Token
  | empty => []
  | single token _ rest => token :: rest.tokens
  | group inner rest => .opening :: inner.tokens ++ .closing :: rest.tokens

namespace Engine

/-- Simplifies the groups of a forest from left to right and puts each back as one
operand. -/
def flatten (engine : Engine) : Forest → Stats → Outcome (List Token)
  | .empty, stats => ⟨.ok [], stats, []⟩
  | .single token _ rest, stats => (engine.flatten rest stats).map (token :: ·)
  | .group inner rest, stats =>
      (engine.flatten inner stats).andThen fun flat stats =>
        (engine.fixedPoint flat stats).andThen fun interior stats =>
          (engine.flatten rest stats.countGroup).map (asOperand interior ++ ·)

def simplifyForest (engine : Engine) (forest : Forest) (stats : Stats) : Outcome (List Token) :=
  (engine.flatten forest stats).andThen engine.fixedPoint

end Engine

end BoolSimplify
