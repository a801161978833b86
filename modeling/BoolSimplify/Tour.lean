/-
A tour of the library in examples.

The tour shows one input for each kind of rule, the tokens of an expression, the
counters and the reports of failures.  Its text is computed from the library.
-/

import BoolSimplify.Simplifier

namespace BoolSimplify.Tour

def padded (width : Nat) (text : String) : String :=
  text ++ String.ofList (List.replicate (width - text.length) ' ')

def bracketed (items : List String) : String :=
  "[" ++ ", ".intercalate items ++ "]"

def kind : Token → String
  | .opening => "Open"
  | .closing => "Close"
  | .conj => "And"
  | .disj => "Or"
  | .neg => "Not"
  | .truth value => "Const(" ++ (if value then "true" else "false") ++ ")"
  | .atom (.letter letter) => "Var(" ++ letter.text ++ ")"
  | .atom (.word text) => "Other(" ++ quote text ++ ")"

def resultText (simplifier : Simplifier) (text : String) : String :=
  match (simplifier.simplify text).result with
  | .ok result => result.simplified
  | .error failure => failure.message

def inputs : List (String × String) :=
  [("idempotence", "A & A"),
   ("double negation", "~~B"),
   ("complement", "(C & ~C) | (A | ~A)"),
   ("absorption", "A & (A | B)"),
   ("distribution", "(A & B) | (A & C)"),
   ("identity", "True & B | False"),
   ("nested groups", "(A & (A | B))")]

def familyLines : List String :=
  "1. Rule Families:" ::
    inputs.map fun (family, input) =>
      "   " ++ padded 16 family ++ " " ++ padded 22 input ++ " => " ++ resultText {} input

def tokenLines : List String :=
  let text := "~(A&B)|C"
  let tokens := tokenize text
  let simplified :=
    match (({} : Simplifier).simplifyTokens tokens).result with
    | .ok tokens => bracketed (tokens.map kind)
    | .error failure => failure.message
  ["2. Tokens:",
   "   Fragments of " ++ quote text ++ ": " ++ bracketed ((fragments text).map quote),
   "   Normalized: " ++ render tokens,
   "   Simplified tokens: " ++ simplified]

def statsLines : List String :=
  let text := "((A & B) | (B & A)) & (C | ~C)"
  let outcome := ({} : Simplifier).simplify text
  ["3. Statistics:",
   "   " ++ text ++ " => " ++ resultText {} text,
   "   " ++ outcome.stats.text]

def failureLines : List String :=
  ["4. Failures:",
   "   (A & B => " ++ resultText {} "(A & B",
   "   A & A with one pass => " ++ resultText ⟨1⟩ "A & A"]

def text : String :=
  let sections :=
    [["=== Simplification Examples ==="], familyLines, tokenLines, statsLines, failureLines]
  "\n\n".intercalate (sections.map ("\n".intercalate ·)) ++ "\n"

end BoolSimplify.Tour
