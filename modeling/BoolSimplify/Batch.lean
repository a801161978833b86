/-
Simplifying many expressions.

A batch holds one expression per line.  Blank lines and lines that start with
`#` are skipped.  Every expression is answered by one line, and one that cannot
be simplified never stops the batch.
-/

import BoolSimplify.Batch.Lines
import BoolSimplify.Simplifier
import BoolSimplify.StreamError

namespace BoolSimplify

def invalidExpression : String := "invalid expression"

namespace Batch

/-! ### Totals -/

structure Totals where
  expressions : Nat
  simplified : Nat
  failed : Nat
  passes : Nat
  deriving DecidableEq, Repr

namespace Totals

def zero : Totals := ⟨0, 0, 0, 0⟩

def count (totals : Totals) : Except Failure Simplification → Totals
  | .ok result =>
      { totals with
        expressions := totals.expressions + 1
        simplified := totals.simplified + (if result.changed then 1 else 0)
        passes := totals.passes + result.stats.passes }
  | .error _ =>
      { totals with
        expressions := totals.expressions + 1
        failed := totals.failed + 1 }

def text (totals : Totals) : String :=
  s!"expressions: {totals.expressions}, simplified: {totals.simplified}, " ++
    s!"failed: {totals.failed}, passes: {totals.passes}"

end Totals

/-! ### Lines -/

def expression? (line : String) : Option String :=
  match trim line.toList with
  | [] => none
  | '#' :: _ => none
  | chars => some (String.ofList chars)

def answer (expression : String) (result : Except Failure Simplification) : String :=
  let written :=
    match result with
    | .ok result => result.simplified
    | .error _ => invalidExpression
  expression ++ " => " ++ written ++ "\n"

def failureEvents (line : Nat) : Except Failure Simplification → List Event
  | .ok _ => []
  | .error failure => [.expressionFailed line failure]

/-! ### Streams -/

inductive Room where
  | unlimited
  | limited (bytes : Nat)
  deriving DecidableEq, Repr

/-- The bytes that a stream takes of those written to it, and the room left
afterwards, none when not all of them had room. -/
def Room.take (room : Room) (bytes : List UInt8) : List UInt8 × Option Room :=
  match room with
  | unlimited => (bytes, some unlimited)
  | limited left =>
      if bytes.length ≤ left then (bytes, some (limited (left - bytes.length)))
      else (bytes.take left, none)

structure Report where
  output : List UInt8
  totals : Except StreamError Totals
  events : List Event

def Report.after (report : Report) (output : List UInt8) (events : List Event) : Report :=
  { report with output := output ++ report.output, events := events ++ report.events }

/-- Answers the expressions in `lines`, of which the first has this `number`.
Every line must be valid text, also one that is skipped. -/
def runLines (simplifier : Simplifier) :
    (lines : List (List UInt8)) → (number : Nat) → Room → Totals → Report
  | [], _, _, totals =>
      ⟨[], .ok totals,
        [.batchCompleted totals.expressions totals.simplified totals.failed]⟩
  | bytes :: lines, number, room, totals =>
      match decode bytes with
      | none => ⟨[], .error .notText, []⟩
      | some line =>
          match expression? line with
          | none => runLines simplifier lines (number + 1) room totals
          | some expression =>
              let outcome := simplifier.simplify expression
              let events := outcome.events ++ failureEvents number outcome.result
              match room.take (encode (answer expression outcome.result)) with
              | (output, none) => ⟨output, .error .full, events⟩
              | (output, some room) =>
                  (runLines simplifier lines (number + 1) room
                    (totals.count outcome.result)).after output events

def run (simplifier : Simplifier) (input : List UInt8) (room : Room) : Report :=
  runLines simplifier (linesOf input) 1 room .zero

/-- Answers every expression of an input that may be impossible to read at all. -/
def runSource (simplifier : Simplifier) (source : Except StreamError (List UInt8)) : Report :=
  match source with
  | .ok input => run simplifier input .unlimited
  | .error error => ⟨[], .error error, []⟩

end Batch

end BoolSimplify
