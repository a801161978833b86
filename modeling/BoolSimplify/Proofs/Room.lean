/-
Batches on streams with limited room.

The main statement says that a batch with enough room for its output does not feel the limit,
and that one without writes as much of its output as there is room for and then reports that
the stream is full, even where it would have failed for another cause later on.
-/

import BoolSimplify.Proofs.Writer

namespace BoolSimplify.Batch

/-! ### Reports -/

/-- What a batch reports with some room, compared with what it reports with unlimited room. -/
structure Report.Fills (report whole : Report) (room : Room) : Prop where
  /-- With enough room nothing is different. -/
  same : (room.take whole.output).2 ≠ none → report = whole
  /-- Without, the output fills the room, and nothing happens afterwards. -/
  full : (room.take whole.output).2 = none → report.output = (room.take whole.output).1 ∧
    report.totals = .error .full ∧ report.events <+: whole.events

namespace Report.Fills

theorem of_output_nil {report : Report} (nothing : report.output = []) (room : Room) :
    report.Fills report room where
  same _ := rfl
  full noRoom := by
    rw [nothing] at noRoom
    cases room with
    | unlimited => cases noRoom
    | limited limit => cases noRoom

theorem of_full {room : Room} {written taken : List UInt8}
    (full : room.take written = (taken, none)) (whole : Report) (events : List Event) :
    Report.Fills ⟨taken, .error .full, events⟩ (whole.after written events) room := by
  have noRoom : room.take (whole.after written events).output = (taken, none) :=
    Room.take_append_of_none full whole.output
  constructor
  · intro enough
    rw [noRoom] at enough
    exact absurd rfl enough
  · intro _
    rw [noRoom]
    exact ⟨rfl, rfl, List.prefix_append events whole.events⟩

theorem after {report whole : Report} {room left : Room} {written taken : List UInt8}
    (fills : report.Fills whole left) (found : room.take written = (taken, some left))
    (events : List Event) :
    (report.after taken events).Fills (whole.after written events) room := by
  obtain rfl := Room.eq_of_take_some found
  have later : room.take (whole.after taken events).output =
      (taken ++ (left.take whole.output).1, (left.take whole.output).2) :=
    Room.take_append_of_some found whole.output
  constructor
  · intro enough
    rw [later] at enough
    rw [fills.same enough]
  · intro noRoom
    rw [later] at noRoom
    obtain ⟨output, failed, events⟩ := fills.full noRoom
    rw [later]
    refine ⟨congrArg (taken ++ ·) output, failed, ?_⟩
    exact (List.prefix_append_right_inj _).mpr events

end Report.Fills

theorem runLines_fills (simplifier : Simplifier) (lines : List (List UInt8)) (number : Nat)
    (room : Room) (totals : Totals) :
    (runLines simplifier lines number room totals).Fills
      (runLines simplifier lines number .unlimited totals) room := by
  induction lines generalizing number room totals with
  | nil => exact .of_output_nil rfl room
  | cons bytes lines ih =>
      rw [runLines, runLines]
      cases decode bytes with
      | none => exact .of_output_nil rfl room
      | some line =>
          dsimp only
          cases expression? line with
          | none => exact ih (number + 1) room totals
          | some expression =>
              dsimp only
              generalize encode (answer expression _) = written
              rw [Room.take_unlimited]
              cases found : room.take written with
              | mk taken left =>
                  cases left with
                  | none => exact .of_full found _ _
                  | some left => exact (ih (number + 1) left _).after found _

/-- On a stream that takes `limit` bytes, a batch whose output is no longer reports what it
does without a limit.  A longer output is cut off at the limit, the stream is reported as
full, whatever the batch would have ended with, and the events are the first ones.  It does
not matter whether the stream is given each answer in pieces or at once. -/
theorem run_limited (simplifier : Simplifier) (input : List UInt8) (limit : Nat) :
    let whole := run simplifier input .unlimited
    let report := run simplifier input (.limited limit)
    let written := write Filled.writer simplifier (.ok input) ⟨[], .limited limit⟩
    (whole.output.length ≤ limit → report.output = whole.output ∧
      report.totals = whole.totals ∧ report.events = whole.events) ∧
    (limit < whole.output.length → report.output = whole.output.take limit ∧
      report.totals = .error .full ∧ report.events <+: whole.events) ∧
    written.state.taken = report.output ∧ written.totals = report.totals ∧
      written.events = report.events := by
  intro whole report written
  have fills : report.Fills whole (.limited limit) :=
    runLines_fills simplifier (linesOf input) 1 (.limited limit) .zero
  refine ⟨?_, ?_, write_filled simplifier input (.limited limit)⟩
  · intro enough
    have same := fills.same (by rw [Room.take_of_le enough]; exact Option.some_ne_none _)
    rw [same]
    exact ⟨rfl, rfl, rfl⟩
  · intro tooMany
    have full := fills.full (by rw [Room.take_of_lt tooMany])
    rwa [Room.take_of_lt tooMany] at full

theorem run_limited_before_invalid :
    let input := encode "A & A\n(B | B)\n" ++ [0xFF]
    (run ⟨500⟩ input .unlimited).output = encode "A & A => A\n(B | B) => B\n" ∧
      (run ⟨500⟩ input .unlimited).totals = .error .notText ∧
      (run ⟨500⟩ input (.limited 24)).totals = .error .notText ∧
      (run ⟨500⟩ input (.limited 21)).output = encode "A & A => A\n(B | B) =>" ∧
      (run ⟨500⟩ input (.limited 21)).totals = .error .full := by
  intro input
  have written : (run ⟨500⟩ input .unlimited).output =
      encode "A & A => A\n(B | B) => B\n" := by
    decide +kernel
  have failed : (run ⟨500⟩ input .unlimited).totals = .error .notText := by decide +kernel
  obtain ⟨enough, _⟩ := run_limited ⟨500⟩ input 24
  obtain ⟨_, cut, _⟩ := run_limited ⟨500⟩ input 21
  rw [written] at enough cut
  obtain ⟨_, sameTotals, _⟩ := enough (by decide +kernel)
  obtain ⟨output, full, _⟩ := cut (by decide +kernel)
  refine ⟨written, failed, sameTotals.trans failed, output.trans ?_, full⟩
  decide +kernel

end BoolSimplify.Batch
