/-
Rules and one scan of a rule over a list of tokens.

A match is replaced only where its neighbours do not bind tighter than the
pattern.  The left neighbour is the last token written so far, the right
neighbour the token after the match.
-/

import BoolSimplify.Rule.Family
import BoolSimplify.Rule.Match
import BoolSimplify.Rule.Strength

namespace BoolSimplify

structure Rule where
  family : Family
  pattern : List Element
  replacement : List Element
  /-- A pattern without elements would match everywhere without taking a token. -/
  pattern_ne_nil : pattern ≠ [] := by exact List.cons_ne_nil _ _
  deriving DecidableEq, Repr

structure Scanned where
  tokens : List Token
  fired : Nat
  deriving DecidableEq, Repr

namespace Rule

def ofSides? (family : Family) (pattern replacement : List Element) : Option Rule :=
  if nonempty : pattern ≠ [] then some ⟨family, pattern, replacement, nonempty⟩ else none

def strength (rule : Rule) : Strength := .of rule.pattern

def loosens (rule : Rule) : Bool := Strength.of rule.replacement < rule.strength

def match? (rule : Rule) (tokens : List Token) : Option Match :=
  matchPrefix? rule.pattern tokens

/-- The places where the pattern occurs in `tokens`, each by its start and the
position behind it.  Places may overlap. -/
def occurrences (rule : Rule) (tokens : List Token) : List (Nat × Nat) :=
  (List.range tokens.length).filterMap fun start =>
    (rule.match? (tokens.drop start)).map fun found =>
      (start, tokens.length - found.rest.length)

/-- The match that may be replaced at the front of `tokens` after `previous`. -/
def redex? (rule : Rule) (previous : Option Token) (tokens : List Token) : Option Match :=
  (rule.match? tokens).filter fun found => rule.strength.admits previous found.rest.head?

/-- Scans `tokens` from left to right after `previous` was written.  The first
`skip` tokens belong to a match that is replaced already.  Matches do not
overlap: the scan goes on behind a replaced match. -/
def scan (rule : Rule) : (previous : Option Token) → (skip : Nat) → List Token → Scanned
  | _, _, [] => ⟨[], 0⟩
  | previous, skip + 1, _ :: rest => scan rule previous skip rest
  | previous, 0, token :: rest =>
      match rule.redex? previous (token :: rest) with
      | some found =>
          let written := found.bindings.fill rule.replacement
          let later := scan rule (written.getLast?.or previous)
            (rest.length - found.rest.length) rest
          ⟨written ++ later.tokens, later.fired + 1⟩
      | none =>
          let later := scan rule (some token) 0 rest
          ⟨token :: later.tokens, later.fired⟩

def apply (rule : Rule) (tokens : List Token) : Scanned :=
  rule.scan none 0 tokens

end Rule

end BoolSimplify
