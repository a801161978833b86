/-
Lexemes of the rule notation.

A rule is written in the tokens of a programming language, so that it can stand
in a program text.  Most of these tokens occur in no rule; they are recognised
so that their text is taken as a whole.
-/

import BoolSimplify.RuleText.Comment
import BoolSimplify.RuleText.Literal

namespace BoolSimplify.RuleText

inductive Bracket where
  | round | square | curly
  deriving DecidableEq, Repr

inductive Lexeme where
  | opening (bracket : Bracket)
  | closing (bracket : Bracket)
  /-- A punctuation sign, and whether another one follows at once -/
  | sign (char : Char) (joint : Bool)
  | word (text : String)
  /-- A literal, a documentation or the mark of a label, which no rule holds -/
  | other
  deriving DecidableEq, Repr

def signs : List Char := "~!@#$%^&*-=+|;:,<.>/?'".toList

def startsComment : (chars : List Char) → Bool
  | '/' :: '/' :: _ => true
  | '/' :: '*' :: _ => true
  | _ => false

def startsSign (chars : List Char) : Bool :=
  !startsComment chars && chars.head?.any signs.contains

def startsLabel (chars : List Char) : Bool :=
  match markedOrPlainWord? chars with
  | none => false
  | some (_, '\'' :: _) => false
  | some (_, '#' :: _) => ['r', '#'].isPrefixOf chars
  | some _ => true

def sign? (chars : List Char) : Option (Lexeme × List Char) :=
  match chars with
  | [] => none
  | char :: rest =>
      if !startsSign chars then none
      else if char = '\'' then if startsLabel rest then some (.other, rest) else none
      else some (.sign char (startsSign rest), rest)

/-- A group that holds nothing but this comment stands for something that could
not be read before. -/
def unreadable : List Char := "(/*ERROR*/)".toList

def bracket? : Char → Option Lexeme
  | '(' => some (.opening .round)
  | '[' => some (.opening .square)
  | '\x7b' => some (.opening .curly)
  | ')' => some (.closing .round)
  | ']' => some (.closing .square)
  | '\x7d' => some (.closing .curly)
  | _ => none

def leaf? (chars : List Char) : Option (Lexeme × List Char) :=
  match literal? chars with
  | some rest => some (.other, rest)
  | none =>
      match sign? chars with
      | some found => some found
      | none => (word? chars).map fun (text, rest) => (.word text, rest)

/-- The lexeme at the front of `char :: rest`, none for what is skipped, and what
follows it. -/
def lexeme? (char : Char) (rest : List Char) : Option (Option Lexeme × List Char) :=
  if isSpace char then some (none, rest)
  else
    match comment? (char :: rest), documentation? (char :: rest) with
    | some rest, _ => some (none, rest)
    | none, some rest => some (some .other, rest)
    | none, none =>
        if unreadable.isPrefixOf (char :: rest) then
          some (some .other, rest.drop (unreadable.length - 1))
        else
          match bracket? char with
          | some bracket => some (some bracket, rest)
          | none => (leaf? (char :: rest)).map fun (lexeme, rest) => (some lexeme, rest)

/-- The lexemes of a list of characters, of which the first `skip` belong to a
lexeme that is read already. -/
def lexemesAfter : (skip : Nat) → (chars : List Char) → Option (List Lexeme)
  | _, [] => some []
  | skip + 1, _ :: rest => lexemesAfter skip rest
  | 0, char :: rest =>
      match lexeme? char rest with
      | none => none
      | some (lexeme, after) =>
          (lexemesAfter (rest.length - after.length) rest).map (lexeme.toList ++ ·)

/-- Whether every bracket is closed by its own kind, with `opened` brackets open
and the innermost first. -/
def bracketsMatch : (opened : List Bracket) → (lexemes : List Lexeme) → Bool
  | opened, [] => opened.isEmpty
  | opened, .opening bracket :: rest => bracketsMatch (bracket :: opened) rest
  | [], .closing _ :: _ => false
  | bracket :: opened, .closing other :: rest => bracket == other && bracketsMatch opened rest
  | opened, _ :: rest => bracketsMatch opened rest

def byteOrderMark : Char := '\ufeff'

def lexemes? (text : String) : Option (List Lexeme) :=
  let chars :=
    match text.toList with
    | [] => []
    | first :: rest => if first = byteOrderMark then rest else first :: rest
  (lexemesAfter 0 chars).filter (bracketsMatch [])

end BoolSimplify.RuleText
