/-
Why an expression could not be simplified.
-/

import BoolSimplify.Text.Quoted
import BoolSimplify.Token.Layout

namespace BoolSimplify

inductive Failure where
  /-- The parenthesis at `position` of `input` has no match. -/
  | unbalanced (position : Nat) (input : List Token)
  /-- The budget ran out after `passes` passes, which had led to `expression`. -/
  | nonConvergent (passes : Nat) (expression : List Token)
  deriving DecidableEq, Repr

namespace Failure

def expressionText : Failure → String
  | unbalanced _ input => render input
  | nonConvergent _ expression => render expression

def message (failure : Failure) : String :=
  match failure with
  | unbalanced position _ =>
      s!"Unbalanced parenthesis at token {position}. Input: " ++ quote failure.expressionText
  | nonConvergent passes _ =>
      s!"Simplification did not converge after {passes} passes. Last expression: " ++
        quote failure.expressionText

end Failure

end BoolSimplify
