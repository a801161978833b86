/-
Writers that answers are given to piece by piece.

An answer is written in several pieces, and a writer can fail at each of them.  A buffer
never fails.  It holds bytes back so that the stream behind it gets them in larger portions,
and passes on what it still holds when it is closed.
-/

import BoolSimplify.Batch

namespace BoolSimplify

structure Writer (State : Type) where
  /-- The state after one more piece, and whether all of it could be written -/
  write : State → List UInt8 → State × Bool
  flush : State → State

def Writer.writeAll {State : Type} (writer : Writer State) :
    State → (pieces : List (List UInt8)) → State × Bool
  | state, [] => (state, true)
  | state, piece :: pieces =>
      match writer.write state piece with
      | (state, true) => writer.writeAll state pieces
      | (state, false) => (state, false)

namespace Batch

/-! ### Answers on a writer -/

def resultText : Except Failure Simplification → String
  | .ok result => result.simplified
  | .error _ => invalidExpression

def answerPieces (expression : String) (result : Except Failure Simplification) :
    List (List UInt8) :=
  [encode expression, encode " => ", encode (resultText result), [lineFeed]]

structure Written (State : Type) where
  state : State
  totals : Except StreamError Totals
  events : List Event

def Written.after {State : Type} (written : Written State) (events : List Event) :
    Written State :=
  { written with events := events ++ written.events }

def writeLines {State : Type} (writer : Writer State) (simplifier : Simplifier) :
    (lines : List (List UInt8)) → (number : Nat) → State → Totals → Written State
  | [], _, state, totals =>
      ⟨writer.flush state, .ok totals,
        [.batchCompleted totals.expressions totals.simplified totals.failed]⟩
  | bytes :: lines, number, state, totals =>
      match decode bytes with
      | none => ⟨state, .error .notText, []⟩
      | some line =>
          match expression? line with
          | none => writeLines writer simplifier lines (number + 1) state totals
          | some expression =>
              let outcome := simplifier.simplify expression
              let events := outcome.events ++ failureEvents number outcome.result
              match writer.writeAll state (answerPieces expression outcome.result) with
              | (state, false) => ⟨state, .error .full, events⟩
              | (state, true) =>
                  (writeLines writer simplifier lines (number + 1) state
                    (totals.count outcome.result)).after events

def write {State : Type} (writer : Writer State) (simplifier : Simplifier)
    (source : Except StreamError (List UInt8)) (state : State) : Written State :=
  match source with
  | .ok input => writeLines writer simplifier (linesOf input) 1 state .zero
  | .error error => ⟨state, .error error, []⟩

/-! ### Limited room -/

structure Filled where
  taken : List UInt8
  room : Room

def Filled.writer : Writer Filled where
  write filled bytes :=
    match filled.room.take bytes with
    | (taken, some room) => (⟨filled.taken ++ taken, room⟩, true)
    | (taken, none) => (⟨filled.taken ++ taken, .limited 0⟩, false)
  flush filled := filled

end Batch

/-! ### Buffers -/

/-- Bytes on their way to a stream, of which at most `capacity` are held back. -/
structure Buffer (capacity : Nat) where
  /-- The bytes passed on to the stream, newest first -/
  passed : List UInt8
  /-- The bytes held back, newest first -/
  held : List UInt8
  free : Nat
  held_add_free : held.length + free = capacity

namespace Buffer

variable {capacity : Nat}

def empty : Buffer capacity := ⟨[], [], capacity, Nat.zero_add capacity⟩

def flush (buffer : Buffer capacity) : Buffer capacity :=
  ⟨buffer.held ++ buffer.passed, [], capacity, Nat.zero_add capacity⟩

def hold (buffer : Buffer capacity) (bytes : List UInt8) (fits : bytes.length ≤ buffer.free) :
    Buffer capacity where
  passed := buffer.passed
  held := bytes.reverse ++ buffer.held
  free := buffer.free - bytes.length
  held_add_free := by
    rw [List.length_append, List.length_reverse]
    have within := buffer.held_add_free
    omega

/-- Passes bytes on at once, which no held bytes must precede. -/
def pass (buffer : Buffer capacity) (bytes : List UInt8) : Buffer capacity :=
  { buffer with passed := bytes.reverse ++ buffer.passed }

def makeSpace (buffer : Buffer capacity) (count : Nat) : Buffer capacity :=
  if count ≤ buffer.free then buffer else buffer.flush

theorem le_free_makeSpace (buffer : Buffer capacity) (count : Nat) (fits : count ≤ capacity) :
    count ≤ (buffer.makeSpace count).free := by
  rw [makeSpace]
  split
  · assumption
  · exact fits

/-- Holds bytes back, or passes them on when they would fill the buffer alone. -/
def write (buffer : Buffer capacity) (bytes : List UInt8) : Buffer capacity :=
  let ready := buffer.makeSpace bytes.length
  if small : bytes.length < capacity then
    ready.hold bytes (buffer.le_free_makeSpace bytes.length (Nat.le_of_lt small))
  else ready.pass bytes

def close (buffer : Buffer capacity) : List UInt8 :=
  buffer.flush.passed.reverse

def writer (capacity : Nat) : Writer (Buffer capacity) where
  write buffer bytes := (buffer.write bytes, true)
  flush := flush

end Buffer

end BoolSimplify
