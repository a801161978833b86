/-
White space and comments of the rule notation.

A comment runs to the end of its line or, nested, to its closing mark.  A comment
that documents what follows it is not skipped but stands for tokens.
-/

import BoolSimplify.Text.Blank

namespace BoolSimplify.RuleText

def isSpace (char : Char) : Bool :=
  isBlank char || char == '\u200e' || char == '\u200f'

/-- What follows a nested comment of which `depth` levels are open. -/
def blockEnd? : (depth : Nat) → (chars : List Char) → Option (List Char)
  | _, [] => none
  | depth, '/' :: '*' :: rest => blockEnd? (depth + 1) rest
  | depth, '*' :: '/' :: rest => if depth ≤ 1 then some rest else blockEnd? (depth - 1) rest
  | depth, _ :: rest => blockEnd? depth rest

def lineEnd (chars : List Char) : List Char :=
  chars.dropWhile (· != '\n')

/-- Whether a comment that was opened before `chars` documents something: it goes on
with `!`, or with one more `mark` and not with two. -/
def isDocumentation (mark : Char) (chars : List Char) : Bool :=
  match chars with
  | '!' :: _ => true
  | first :: second :: _ => first == mark && second != mark
  | [first] => first == mark
  | [] => false

/-- What follows a comment at the front of `chars` that documents nothing. -/
def comment? : (chars : List Char) → Option (List Char)
  | '/' :: '/' :: rest => if isDocumentation '/' rest then none else some (lineEnd rest)
  | '/' :: '*' :: '*' :: '/' :: rest => some rest
  | '/' :: '*' :: rest => if isDocumentation '*' rest then none else blockEnd? 1 rest
  | _ => none

def hasBareReturn : (chars : List Char) → Bool
  | [] => false
  | '\r' :: '\n' :: rest => hasBareReturn rest
  | '\r' :: _ => true
  | _ :: rest => hasBareReturn rest

def documentation? : (chars : List Char) → Option (List Char)
  | '/' :: '/' :: rest =>
      let after := lineEnd rest
      let line := rest.take (rest.length - after.length + 1)
      if isDocumentation '/' rest && !hasBareReturn line.tail then some after else none
  | '/' :: '*' :: rest =>
      match blockEnd? 1 rest with
      | some after =>
          let body := rest.take (rest.length - after.length - 2)
          if isDocumentation '*' rest && !hasBareReturn body.tail then some after else none
      | none => none
  | _ => none

end BoolSimplify.RuleText
