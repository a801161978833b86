/-
The engine that applies rules.

One pass applies every rule once.  Passes are repeated until one leaves the
tokens as they were, or until the budget of passes is used up.  Groups are
simplified from the inside out, then what remains at the top level.
-/

import BoolSimplify.Engine.Outcome
import BoolSimplify.Group
import BoolSimplify.Rule

namespace BoolSimplify

structure Engine where
  rules : List Rule
  maxPasses : Nat

/-! ### Passes -/

structure Pass where
  tokens : List Token
  /-- For every rule that fired, its family and the number of its replacements -/
  firings : List (Family × Nat)

namespace Pass

def replacements (pass : Pass) : Nat :=
  pass.firings.foldr (fun firing total => firing.2 + total) 0

def events (pass : Pass) (number : Nat) : List Event :=
  pass.firings.map (fun (family, fired) => .ruleFired family fired) ++
    [.passEnded number pass.tokens]

end Pass

def runPass : (rules : List Rule) → (tokens : List Token) → Pass
  | [], tokens => ⟨tokens, []⟩
  | rule :: rules, tokens =>
      let scanned := rule.apply tokens
      let later := runPass rules scanned.tokens
      if scanned.fired = 0 then later
      else { later with firings := (rule.family, scanned.fired) :: later.firings }

def runPasses (rules : List Rule) :
    (budget : Nat) → (tokens : List Token) → Stats → Outcome (List Token)
  | 0, tokens, stats =>
      ⟨.error (.nonConvergent stats.passes tokens), stats,
        [.budgetExhausted stats.passes tokens]⟩
  | budget + 1, tokens, stats =>
      let pass := runPass rules tokens
      let stats := stats.countPass pass.replacements
      let events := pass.events stats.passes
      if pass.tokens = tokens then ⟨.ok tokens, stats, events⟩
      else (runPasses rules budget pass.tokens stats).after events

namespace Engine

/-- Brings a flat list of tokens to a fixed point of the rules.  The passes
counted in `stats` are already used up. -/
def fixedPoint (engine : Engine) (tokens : List Token) (stats : Stats) :
    Outcome (List Token) :=
  runPasses engine.rules (engine.maxPasses - stats.passes) tokens stats

/-! ### Groups -/

structure OpenGroup where
  position : Nat
  /-- What the level around it had collected before, newest first -/
  around : List Token
  deriving DecidableEq, Repr

/-- Reads tokens from `position` of `input` on.  `collected` is what the current
level has collected so far, newest first, and `groups` are the open groups with
the innermost first.  A closed group is simplified and put back into the level
around it as one operand. -/
def simplifyFrom (engine : Engine) (input : List Token) :
    (position : Nat) → (tokens : List Token) → (collected : List Token) →
      (groups : List OpenGroup) → Stats → Outcome (List Token)
  | _, [], collected, [], stats => engine.fixedPoint collected.reverse stats
  | _, [], _, group :: _, stats => ⟨.error (.unbalanced group.position input), stats, []⟩
  | position, .opening :: rest, collected, groups, stats =>
      engine.simplifyFrom input (position + 1) rest [] (⟨position, collected⟩ :: groups) stats
  | position, .closing :: _, _, [], stats =>
      ⟨.error (.unbalanced position input), stats, []⟩
  | position, .closing :: rest, collected, group :: groups, stats =>
      (engine.fixedPoint collected.reverse stats).andThen fun interior stats =>
        (engine.simplifyFrom input (position + 1) rest
          ((asOperand interior).reverse ++ group.around) groups stats.countGroup).after
            [.groupSimplified group.position position interior]
  | position, token :: rest, collected, groups, stats =>
      engine.simplifyFrom input (position + 1) rest (token :: collected) groups stats

def simplify (engine : Engine) (tokens : List Token) (stats : Stats) : Outcome (List Token) :=
  engine.simplifyFrom tokens 0 tokens [] [] stats

/-! ### Sessions -/

inductive Step where
  | simplify (tokens : List Token)
  | fixedPoint (tokens : List Token)
  deriving DecidableEq, Repr

def perform (engine : Engine) (step : Step) (stats : Stats) : Outcome (List Token) :=
  match step with
  | .simplify tokens => engine.simplify tokens stats
  | .fixedPoint tokens => engine.fixedPoint tokens stats

/-- Performs steps one after the other on one budget.  A failure ends its own step
only, and the work done in it stays counted. -/
def performAll (engine : Engine) : (steps : List Step) → Stats → List (Outcome (List Token))
  | [], _ => []
  | step :: steps, stats =>
      let outcome := engine.perform step stats
      outcome :: engine.performAll steps outcome.stats

end Engine

end BoolSimplify
