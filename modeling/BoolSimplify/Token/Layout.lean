/-
The normal layout of an expression.

Neighbouring tokens are separated by one space, except that nothing separates
`~` and `(` from what follows them, and `)` from what stands before it.
-/

import BoolSimplify.Token

namespace BoolSimplify

def isGlued (previous token : Token) : Bool :=
  match previous with
  | .neg | .opening => true
  | _ => token == .closing

/-- The text that follows `previous` when `tokens` come after it. -/
def layoutAfter (previous : Token) : (tokens : List Token) → List Char
  | [] => []
  | token :: rest =>
      (if isGlued previous token then [] else [' ']) ++
        token.text.toList ++ layoutAfter token rest

def layout : List Token → List Char
  | [] => []
  | token :: rest => token.text.toList ++ layoutAfter token rest

def render (tokens : List Token) : String :=
  String.ofList (layout tokens)

end BoolSimplify
