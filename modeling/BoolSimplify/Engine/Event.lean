/-
What the engine reports while it works.

An event is kept as what happened.  Its level, its message and its named fields
are derived from that, so that reports can be written in any format.
-/

import BoolSimplify.Engine.Failure
import BoolSimplify.Engine.Stats
import BoolSimplify.Rule.Family

namespace BoolSimplify

inductive Level where
  | trace | debug | info | warn
  deriving DecidableEq, Repr

namespace Level

def rank : Level → Nat
  | trace => 0
  | debug => 1
  | info => 2
  | warn => 3

def name : Level → String
  | trace => "TRACE"
  | debug => "DEBUG"
  | info => "INFO"
  | warn => "WARN"

end Level

inductive FieldValue where
  | number (value : Nat)
  | text (value : String)
  deriving DecidableEq, Repr

inductive Event where
  | ruleFired (family : Family) (fired : Nat)
  | passEnded (pass : Nat) (tokens : List Token)
  /-- The group between the parentheses at `first` and `last` became `tokens`. -/
  | groupSimplified (first last : Nat) (tokens : List Token)
  | budgetExhausted (passes : Nat) (tokens : List Token)
  | expressionSimplified (input output : String) (stats : Stats)
  | expressionFailed (line : Nat) (failure : Failure)
  | requestFailed (failure : Failure)
  | batchCompleted (expressions simplified failed : Nat)
  deriving DecidableEq, Repr

namespace Event

def level : Event → Level
  | passEnded .. => .trace
  | ruleFired .. | groupSimplified .. | expressionSimplified .. => .debug
  | expressionFailed .. | requestFailed .. => .debug
  | batchCompleted .. => .info
  | budgetExhausted .. => .warn

def message : Event → String
  | ruleFired .. => "rule fired"
  | passEnded .. => "catalog pass"
  | groupSimplified .. => "simplified group"
  | budgetExhausted .. => "pass budget exhausted"
  | expressionSimplified .. => "simplified expression"
  | expressionFailed .. => "expression failed"
  | requestFailed .. => "simplification failed"
  | batchCompleted .. => "batch complete"

def fields : Event → List (String × FieldValue)
  | ruleFired family fired => [("family", .text family.name), ("fired", .number fired)]
  | passEnded pass tokens => [("pass", .number pass), ("expression", .text (render tokens))]
  | groupSimplified first last tokens =>
      [("start", .number first), ("end", .number last), ("result", .text (render tokens))]
  | budgetExhausted passes tokens =>
      [("passes", .number passes), ("expression", .text (render tokens))]
  | expressionSimplified input output stats =>
      [("input", .text input), ("output", .text output), ("passes", .number stats.passes),
       ("rewrites", .number stats.replacements)]
  | expressionFailed line failure => [("line", .number line), ("error", .text failure.message)]
  | requestFailed failure => [("error", .text failure.message)]
  | batchCompleted expressions simplified failed =>
      [("expressions", .number expressions), ("simplified", .number simplified),
       ("failed", .number failed)]

def text (event : Event) : String :=
  event.fields.foldl
    (fun line (name, value) =>
      match value with
      | .number value => line ++ " " ++ name ++ "=" ++ toString value
      | .text value => line ++ " " ++ name ++ "=" ++ quote value)
    (event.level.name ++ " " ++ event.message)

end Event

end BoolSimplify
