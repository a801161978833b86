/-
What writers receive.

Bytes that are written in several pieces are taken like bytes that are written at once, so
it does not matter at which byte of which answer the room ends.  A writer delivers what is
written to it when it does so for each piece; then it receives the output of a batch as
a stream does that is given one answer after the other.  This holds for limited room, and
for a buffer of any capacity as soon as it is closed.
-/

import BoolSimplify.Batch.Writer
import BoolSimplify.Proofs.Lines

namespace BoolSimplify

namespace Batch

/-! ### Room -/

namespace Room

theorem take_unlimited (bytes : List UInt8) : unlimited.take bytes = (bytes, some unlimited) :=
  rfl

theorem take_nil (room : Room) : room.take [] = ([], some room) := by
  cases room with
  | unlimited => rfl
  | limited limit => rfl

theorem take_of_le {limit : Nat} {bytes : List UInt8} (enough : bytes.length ≤ limit) :
    (limited limit).take bytes = (bytes, some (limited (limit - bytes.length))) :=
  if_pos enough

theorem take_of_lt {limit : Nat} {bytes : List UInt8} (tooMany : limit < bytes.length) :
    (limited limit).take bytes = (bytes.take limit, none) :=
  if_neg (Nat.not_le.mpr tooMany)

theorem eq_of_take_some {room left : Room} {bytes taken : List UInt8}
    (found : room.take bytes = (taken, some left)) : taken = bytes := by
  cases room with
  | unlimited =>
      cases found
      rfl
  | limited limit =>
      by_cases enough : bytes.length ≤ limit
      · rw [take_of_le enough] at found
        cases found
        rfl
      · rw [take_of_lt (Nat.lt_of_not_le enough)] at found
        cases found

theorem take_append_of_none {room : Room} {first taken : List UInt8}
    (full : room.take first = (taken, none)) (second : List UInt8) :
    room.take (first ++ second) = (taken, none) := by
  cases room with
  | unlimited => cases full
  | limited limit =>
      by_cases enough : first.length ≤ limit
      · rw [take_of_le enough] at full
        cases full
      · have tooMany := Nat.lt_of_not_le enough
        rw [take_of_lt tooMany] at full
        cases full
        rw [take_of_lt (by rw [List.length_append]; omega),
          List.take_append_of_le_length (Nat.le_of_lt tooMany)]

theorem take_append_of_some {room left : Room} {first taken : List UInt8}
    (found : room.take first = (taken, some left)) (second : List UInt8) :
    room.take (first ++ second) = (first ++ (left.take second).1, (left.take second).2) := by
  cases room with
  | unlimited =>
      cases found
      rfl
  | limited limit =>
      by_cases enough : first.length ≤ limit
      · rw [take_of_le enough] at found
        cases found
        by_cases enoughLeft : second.length ≤ limit - first.length
        · rw [take_of_le enoughLeft, take_of_le (by rw [List.length_append]; omega),
            List.length_append, Nat.sub_sub]
        · have tooMany := Nat.lt_of_not_le enoughLeft
          rw [take_of_lt tooMany, take_of_lt (by rw [List.length_append]; omega),
            List.take_append, List.take_of_length_le enough]
      · rw [take_of_lt (Nat.lt_of_not_le enough)] at found
        cases found

end Room

end Batch

/-! ### Delivery -/

section Delivery

variable {State : Type} {writer : Writer State} {contents : State → List UInt8}
  {room : State → Batch.Room}

/-- How a writer that was in `state` stands after `bytes` were written to it, and whether all
of them were.  What it has received so far, or will when it is closed, is its `contents`. -/
inductive Writer.Receives (contents : State → List UInt8) (room : State → Batch.Room)
    (state : State) (bytes : List UInt8) : State × Bool → Prop where
  | complete (next : State) (found : (room state).take bytes = (bytes, some (room next)))
      (grown : contents next = contents state ++ bytes) :
      Receives contents room state bytes (next, true)
  | cut (next : State) (taken : List UInt8) (full : (room state).take bytes = (taken, none))
      (grown : contents next = contents state ++ taken) :
      Receives contents room state bytes (next, false)

/-- A writer that neither loses, changes nor repeats anything for which there is room. -/
structure Writer.Delivers (writer : Writer State) (contents : State → List UInt8)
    (room : State → Batch.Room) : Prop where
  write : ∀ state bytes, Receives contents room state bytes (writer.write state bytes)
  flush : ∀ state, contents (writer.flush state) = contents state

namespace Writer.Delivers

theorem writeAll (delivers : writer.Delivers contents room) (state : State)
    (pieces : List (List UInt8)) :
    Receives contents room state pieces.flatten (writer.writeAll state pieces) := by
  induction pieces generalizing state with
  | nil => exact .complete state (room state).take_nil (List.append_nil _).symm
  | cons piece pieces ih =>
      have received := delivers.write state piece
      rw [List.flatten_cons, Writer.writeAll]
      generalize writer.write state piece = after at received
      cases received with
      | cut next taken full grown =>
          exact .cut next taken (Batch.Room.take_append_of_none full _) grown
      | complete next found grown =>
          have later := Batch.Room.take_append_of_some found pieces.flatten
          have receivedLater := ih next
          dsimp only
          generalize writer.writeAll next pieces = last at receivedLater
          cases receivedLater with
          | cut last taken full grownLater =>
              rw [full] at later
              exact .cut last _ later (by rw [grownLater, grown, List.append_assoc])
          | complete last foundLater grownLater =>
              rw [foundLater] at later
              exact .complete last later (by rw [grownLater, grown, List.append_assoc])

end Writer.Delivers

end Delivery

namespace Batch

theorem flatten_answerPieces (expression : String) (result : Except Failure Simplification) :
    (answerPieces expression result).flatten = encode (answer expression result) := by
  have written : answer expression result = expression ++ " => " ++ resultText result ++ "\n" := by
    cases result with
    | ok simplification => rfl
    | error failure => rfl
  rw [written]
  simp only [answerPieces, encode_append, encode_newline, List.flatten_cons, List.flatten_nil,
    List.append_assoc, List.append_nil]

section Lines

variable {State : Type} {writer : Writer State} {contents : State → List UInt8}
  {room : State → Room}

/-- A writer that delivers what is written to it receives the output of a batch. -/
theorem writeLines_delivers (delivers : writer.Delivers contents room) (simplifier : Simplifier)
    (lines : List (List UInt8)) (number : Nat) (state : State) (totals : Totals) :
    let written := writeLines writer simplifier lines number state totals
    let report := runLines simplifier lines number (room state) totals
    contents written.state = contents state ++ report.output ∧
      written.totals = report.totals ∧ written.events = report.events := by
  have nothing (state : State) : contents state = contents state ++ [] :=
    (List.append_nil _).symm
  induction lines generalizing number state totals with
  | nil => exact ⟨(delivers.flush state).trans (nothing state), rfl, rfl⟩
  | cons bytes lines ih =>
      rw [writeLines, runLines]
      cases decode bytes with
      | none => exact ⟨nothing state, rfl, rfl⟩
      | some line =>
          dsimp only
          cases expression? line with
          | none => exact ih (number + 1) state totals
          | some expression =>
              dsimp only
              generalize (simplifier.simplify expression).result = result
              have received := delivers.writeAll state (answerPieces expression result)
              rw [flatten_answerPieces] at received
              generalize writer.writeAll state (answerPieces expression result) = after at received
              cases received with
              | cut next taken full grown =>
                  rw [full]
                  exact ⟨grown, rfl, rfl⟩
              | complete next found grown =>
                  rw [found]
                  obtain ⟨output, counted, told⟩ := ih (number + 1) next (totals.count result)
                  refine ⟨output.trans ?_, counted, congrArg (_ ++ ·) told⟩
                  rw [grown, List.append_assoc]
                  rfl

end Lines

/-! ### Limited room -/

theorem Filled.delivers : Filled.writer.Delivers Filled.taken Filled.room where
  write filled bytes := by
    rw [Filled.writer]
    dsimp only
    cases found : filled.room.take bytes with
    | mk taken left =>
        cases left with
        | none => exact .cut _ taken found rfl
        | some left =>
            obtain rfl := Room.eq_of_take_some found
            exact .complete _ found rfl
  flush _ := rfl

/-- Answers that are written in pieces end at the same byte as answers written at once. -/
theorem write_filled (simplifier : Simplifier) (input : List UInt8) (room : Room) :
    let written := write Filled.writer simplifier (.ok input) ⟨[], room⟩
    let report := run simplifier input room
    written.state.taken = report.output ∧ written.totals = report.totals ∧
      written.events = report.events :=
  writeLines_delivers Filled.delivers simplifier (linesOf input) 1 ⟨[], room⟩ .zero

end Batch

/-! ### Buffers -/

namespace Buffer

variable {capacity : Nat}

theorem close_eq (buffer : Buffer capacity) :
    buffer.close = buffer.passed.reverse ++ buffer.held.reverse :=
  List.reverse_append

theorem close_makeSpace (buffer : Buffer capacity) (count : Nat) :
    (buffer.makeSpace count).close = buffer.close := by
  rw [makeSpace]
  split
  · rfl
  · rfl

theorem held_makeSpace (buffer : Buffer capacity) (count : Nat) (large : capacity ≤ count) :
    (buffer.makeSpace count).held = [] := by
  rw [makeSpace]
  split
  · have within := buffer.held_add_free
    exact List.length_eq_zero_iff.mp (by omega)
  · rfl

theorem close_hold (buffer : Buffer capacity) (bytes : List UInt8)
    (fits : bytes.length ≤ buffer.free) :
    (buffer.hold bytes fits).close = buffer.close ++ bytes := by
  rw [close_eq, close_eq, hold, List.reverse_append, List.reverse_reverse, List.append_assoc]

theorem close_pass (buffer : Buffer capacity) (bytes : List UInt8) (empty : buffer.held = []) :
    (buffer.pass bytes).close = buffer.close ++ bytes := by
  have stillEmpty : (buffer.pass bytes).held = [] := empty
  rw [close_eq, close_eq, stillEmpty, empty, pass, List.reverse_append, List.reverse_reverse,
    List.reverse_nil, List.append_nil, List.append_nil]

theorem close_write (buffer : Buffer capacity) (bytes : List UInt8) :
    (buffer.write bytes).close = buffer.close ++ bytes := by
  rw [← buffer.close_makeSpace bytes.length, write]
  by_cases small : bytes.length < capacity
  · rw [dif_pos small]
    exact close_hold _ bytes _
  · rw [dif_neg small]
    exact close_pass _ bytes (buffer.held_makeSpace _ (Nat.le_of_not_lt small))

theorem close_flush (buffer : Buffer capacity) : buffer.flush.close = buffer.close := rfl

theorem delivers (capacity : Nat) :
    (writer capacity).Delivers close fun _ => .unlimited where
  write buffer bytes :=
    .complete (buffer.write bytes) (Batch.Room.take_unlimited bytes) (buffer.close_write bytes)
  flush := close_flush

/-- A buffer loses no part of the output of a batch, wherever the batch ends. -/
theorem write_buffered (capacity : Nat) (simplifier : Simplifier)
    (source : Except StreamError (List UInt8)) :
    let written := Batch.write (writer capacity) simplifier source empty
    let report := Batch.runSource simplifier source
    written.state.close = report.output ∧ written.totals = report.totals ∧
      written.events = report.events := by
  cases source with
  | error error => exact ⟨rfl, rfl, rfl⟩
  | ok input => exact Batch.writeLines_delivers (delivers capacity) simplifier _ 1 empty .zero

end Buffer

end BoolSimplify
