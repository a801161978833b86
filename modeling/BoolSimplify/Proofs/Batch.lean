/-
What a batch writes, counts and reports.

Each line is answered on its own: the lines up to the first that is not valid text are
read, and each expression in them is simplified from a fresh budget.  The main statement
gives the output, the totals and the reported failures of a batch in terms of these, and
what they are for an input that is put together from two.
-/

import BoolSimplify.Proofs.Lines
import BoolSimplify.Proofs.Log
import BoolSimplify.Proofs.Preservation

namespace BoolSimplify

/-! ### Text on one line -/

theorem IsFragment.not_blank {chars : List Char} (isFragment : IsFragment chars) :
    ∀ char ∈ chars, isBlank char = false := by
  intro char member
  cases isFragment with
  | run _ nonempty allRun => exact ((isRunChar_iff char).mp (allRun char member)).1
  | standalone alone isAlone =>
      cases List.mem_singleton.mp member
      exact not_blank_of_standalone _ isAlone

theorem layoutAfter_blank (previous : Token) (tokens : List Token)
    (legible : ∀ token ∈ tokens, token.Legible) :
    ∀ char ∈ layoutAfter previous tokens, isBlank char = true → char = ' ' := by
  induction tokens generalizing previous with
  | nil => exact fun char member => absurd member List.not_mem_nil
  | cons token rest ih =>
      obtain ⟨here, later⟩ := List.forall_mem_cons.mp legible
      intro char member blank
      rw [layoutAfter, List.append_assoc, List.mem_append, List.mem_append] at member
      rcases member with between | inToken | inRest
      · split at between
        · cases between
        · exact List.mem_singleton.mp between
      · rw [here.isFragment.not_blank char inToken] at blank
        cases blank
      · exact ih token later char inRest blank

theorem render_blank (tokens : List Token) (legible : ∀ token ∈ tokens, token.Legible) :
    ∀ char ∈ (render tokens).toList, isBlank char = true → char = ' ' := by
  rw [render, String.toList_ofList]
  cases tokens with
  | nil => exact fun char member => absurd member List.not_mem_nil
  | cons token rest =>
      obtain ⟨here, later⟩ := List.forall_mem_cons.mp legible
      intro char member blank
      rw [layout, List.mem_append] at member
      rcases member with inToken | inRest
      · rw [here.isFragment.not_blank char inToken] at blank
        cases blank
      · exact layoutAfter_blank token rest later char inRest blank

namespace Simplifier

theorem blank_of_mem_simplified (simplifier : Simplifier) (text : String)
    (simplification : Simplification)
    (succeeded : (simplifier.simplify text).result = .ok simplification) :
    ∀ char ∈ simplification.simplified.toList, isBlank char = true → char = ' ' := by
  obtain ⟨tokens, found, rendered⟩ := simplifier.simplify_eq_ok text simplification succeeded
  have legible : ∀ token ∈ tokens, token.Legible := by
    have read := legible_of_mem_tokenize simplification.simplified
    rwa [rendered, simplifier.tokenize_render_simplified text tokens found] at read
  rw [rendered]
  exact render_blank tokens legible

theorem lineFeed_not_mem_simplified (simplifier : Simplifier) (text : String)
    (simplification : Simplification)
    (succeeded : (simplifier.simplify text).result = .ok simplification) :
    '\n' ∉ simplification.simplified.toList := by
  intro member
  have isSpace := simplifier.blank_of_mem_simplified text simplification succeeded _ member rfl
  exact absurd isSpace (by decide)

/-! ### Events of one expression -/

theorem simplify_events (simplifier : Simplifier) (text : String) (Kept : Event → Prop)
    (fired : ∀ family count, Kept (.ruleFired family count))
    (ended : ∀ pass tokens, Kept (.passEnded pass tokens))
    (exhausted : ∀ passes tokens, Kept (.budgetExhausted passes tokens))
    (grouped : ∀ first last tokens, Kept (.groupSimplified first last tokens))
    (simplified : ∀ input output stats, Kept (.expressionSimplified input output stats)) :
    ∀ event ∈ (simplifier.simplify text).events, Kept event := by
  have inside : ∀ event ∈ (simplifier.simplifyTokens (tokenize text)).events, Kept event :=
    simplifier.engine.simplifyFrom_events Kept fired ended exhausted grouped _ _ _ _ _ _
  rw [simplify, Outcome.andThen]
  split
  · rw [Outcome.after, List.forall_mem_append, List.forall_mem_singleton]
    exact ⟨inside, simplified _ _ _⟩
  · exact inside

end Simplifier

namespace Batch

def failedLine? : Event → Option (Nat × Failure)
  | .expressionFailed line failure => some (line, failure)
  | _ => none

/-- The numbers of lines and the errors that the reports of failed expressions give. -/
def toldFailures (events : List Event) : List (Option Nat × Option String) :=
  (Event.withMessage "expression failed" events).map fun event =>
    (event.numberField? "line", event.textField? "error")

theorem toldFailures_eq (events : List Event) :
    toldFailures events = (events.filterMap failedLine?).map fun failure =>
      (some failure.1, some failure.2.message) := by
  apply Event.map_withMessage
  intro event
  cases event <;> rfl

theorem failedLine?_simplify (simplifier : Simplifier) (text : String) :
    (simplifier.simplify text).events.filterMap failedLine? = [] := by
  apply List.filterMap_eq_nil_iff.mpr
  apply simplifier.simplify_events text fun event => failedLine? event = none
  all_goals intros; rfl

/-! ### Entries -/

/-- An expression of a batch and the result of simplifying it alone. -/
structure Entry where
  expression : String
  result : Except Failure Simplification

namespace Entry

def changed (entry : Entry) : Bool :=
  entry.result.toOption.any Simplification.changed

def failed (entry : Entry) : Bool :=
  entry.result.toOption.isNone

def passes (entry : Entry) : Nat :=
  (entry.result.toOption.map fun simplification => simplification.stats.passes).getD 0

/-- The line of output for the expression, without its ending. -/
def written (entry : Entry) : String :=
  match entry.result with
  | .ok simplification => entry.expression ++ " => " ++ simplification.simplified
  | .error _ => entry.expression ++ " => " ++ "invalid expression"

def line (entry : Entry) : List UInt8 :=
  encode entry.written ++ [lineFeed]

end Entry

/-- The texts of the lines up to the first that is not valid text. -/
def readable (lines : List (List UInt8)) : List String :=
  ((lines.map decode).takeWhile Option.isSome).reduceOption

def entries (simplifier : Simplifier) (texts : List String) : List Entry :=
  (texts.filterMap expression?).map fun expression =>
    ⟨expression, (simplifier.simplify expression).result⟩

/-- The failures in texts on lines that are numbered from `number` on. -/
def failures (simplifier : Simplifier) (number : Nat) (texts : List String) :
    List (Nat × Failure) :=
  (texts.zipIdx number).filterMap fun (text, number) =>
    (expression? text).bind fun expression =>
      match (simplifier.simplify expression).result with
      | .ok _ => none
      | .error failure => some (number, failure)

/-- The totals of a batch with these entries. -/
def Totals.of (entries : List Entry) : Totals :=
  ⟨entries.length, entries.countP Entry.changed, entries.countP Entry.failed,
    (entries.map Entry.passes).sum⟩

def Totals.add (first second : Totals) : Totals :=
  ⟨first.expressions + second.expressions, first.simplified + second.simplified,
    first.failed + second.failed, first.passes + second.passes⟩

namespace Totals

theorem add_assoc (first second third : Totals) :
    (first.add second).add third = first.add (second.add third) := by
  simp only [add, Nat.add_assoc]

theorem zero_add (totals : Totals) : zero.add totals = totals := by
  simp only [add, zero, Nat.zero_add]

theorem of_append (first second : List Entry) :
    of (first ++ second) = (of first).add (of second) := by
  simp only [of, add, List.length_append, List.countP_append, List.map_append, List.sum_append]

theorem count_result (totals : Totals) (entry : Entry) :
    totals.count entry.result = totals.add (of [entry]) := by
  obtain ⟨expression, result⟩ := entry
  cases result with
  | ok simplification =>
      cases changed : simplification.changed <;>
        simp [count, add, of, Entry.changed, Entry.failed, Entry.passes, Except.toOption, changed]
  | error failure =>
      simp [count, add, of, Entry.changed, Entry.failed, Entry.passes, Except.toOption]

end Totals

theorem Entry.encode_answer (entry : Entry) :
    encode (answer entry.expression entry.result) = entry.line := by
  rw [Entry.line, ← encode_newline, ← encode_append]
  obtain ⟨expression, result⟩ := entry
  cases result with
  | ok simplification => rfl
  | error failure => rfl

theorem entries_append (simplifier : Simplifier) (first second : List String) :
    entries simplifier (first ++ second) =
      entries simplifier first ++ entries simplifier second := by
  rw [entries, List.filterMap_append, List.map_append]
  rfl

theorem entries_skipped (simplifier : Simplifier) {text : String} (texts : List String)
    (skipped : expression? text = none) :
    entries simplifier (text :: texts) = entries simplifier texts := by
  rw [entries, List.filterMap_cons_none skipped]
  rfl

theorem entries_held (simplifier : Simplifier) {text expression : String} (texts : List String)
    (held : expression? text = some expression) :
    entries simplifier (text :: texts) =
      ⟨expression, (simplifier.simplify expression).result⟩ :: entries simplifier texts := by
  rw [entries, List.filterMap_cons_some held]
  rfl

theorem failures_skipped (simplifier : Simplifier) {text : String} (number : Nat)
    (texts : List String) (skipped : expression? text = none) :
    failures simplifier number (text :: texts) = failures simplifier (number + 1) texts := by
  simp only [failures, List.zipIdx_cons, List.filterMap_cons, skipped, Option.bind_none]

theorem failures_held (simplifier : Simplifier) {text expression : String} (number : Nat)
    (texts : List String) (held : expression? text = some expression) :
    failures simplifier number (text :: texts) =
      (failureEvents number (simplifier.simplify expression).result).filterMap failedLine? ++
        failures simplifier (number + 1) texts := by
  simp only [failures, List.zipIdx_cons, List.filterMap_cons, held, Option.bind_some]
  cases (simplifier.simplify expression).result with
  | ok simplification => rfl
  | error failure => rfl

theorem failures_shift (simplifier : Simplifier) (number count : Nat) (texts : List String) :
    failures simplifier (number + count) texts =
      (failures simplifier number texts).map fun failure => (failure.1 + count, failure.2) := by
  induction texts generalizing number with
  | nil => rfl
  | cons text texts ih =>
      have later := ih (number + 1)
      rw [Nat.add_right_comm] at later
      cases held : expression? text with
      | none => rw [failures_skipped _ _ _ held, failures_skipped _ _ _ held, later]
      | some expression =>
          rw [failures_held _ _ _ held, failures_held _ _ _ held, List.map_append, later]
          cases (simplifier.simplify expression).result with
          | ok simplification => rfl
          | error failure => rfl

theorem failures_append (simplifier : Simplifier) (number : Nat) (first second : List String) :
    failures simplifier number (first ++ second) = failures simplifier number first ++
      (failures simplifier number second).map fun failure =>
        (failure.1 + first.length, failure.2) := by
  rw [← failures_shift, failures, List.zipIdx_append, List.filterMap_append]
  rfl

theorem readable_cons (bytes : List UInt8) (lines : List (List UInt8)) :
    readable (bytes :: lines) = match decode bytes with
      | none => []
      | some text => text :: readable lines := by
  rw [readable, List.map_cons]
  cases decoded : decode bytes with
  | none => rfl
  | some text => rfl

/-! ### Reports -/

/-- What a stream with unlimited room gets from lines, of which the first has this
`number`, after lines with these `totals`. -/
theorem runLines_unlimited (simplifier : Simplifier) (lines : List (List UInt8)) (number : Nat)
    (totals : Totals) :
    let report := runLines simplifier lines number .unlimited totals
    report.output = (entries simplifier (readable lines)).flatMap Entry.line ∧
      report.totals = (if ∀ line ∈ lines, (decode line).isSome then
        .ok (totals.add (.of (entries simplifier (readable lines)))) else .error .notText) ∧
      report.events.filterMap failedLine? = failures simplifier number (readable lines) := by
  induction lines generalizing number totals with
  | nil =>
      refine ⟨rfl, ?_, rfl⟩
      rw [if_pos (fun line member => absurd member List.not_mem_nil)]
      rfl
  | cons bytes lines ih =>
      simp only [runLines, readable_cons, List.forall_mem_cons]
      cases decode bytes with
      | none => exact ⟨rfl, (if_neg fun valid => Bool.false_ne_true valid.1).symm, rfl⟩
      | some text =>
          simp only [Option.isSome_some, true_and]
          cases held : expression? text with
          | none =>
              rw [entries_skipped simplifier _ held, failures_skipped simplifier number _ held]
              exact ih (number + 1) totals
          | some expression =>
              obtain ⟨output, counted, told⟩ :=
                ih (number + 1) (totals.count (simplifier.simplify expression).result)
              rw [entries_held simplifier _ held, failures_held simplifier number _ held]
              refine ⟨?_, ?_, ?_⟩
              · rw [List.flatMap_cons, ← output, ← Entry.encode_answer]
                rfl
              · rw [← List.singleton_append, Totals.of_append, ← Totals.add_assoc,
                  ← Totals.count_result]
                exact counted
              · rw [← told]
                simp only [Room.take, Report.after, List.filterMap_append, failedLine?_simplify,
                  List.nil_append]

theorem failures_pairwise (simplifier : Simplifier) (number : Nat) (texts : List String) :
    (failures simplifier number texts).Pairwise fun earlier later => earlier.1 < later.1 := by
  have numbered : (texts.zipIdx number).Pairwise fun earlier later => earlier.2 < later.2 := by
    rw [← List.pairwise_map (f := Prod.snd) (R := (· < ·)), List.zipIdx_map_snd]
    exact List.pairwise_lt_range'
  refine numbered.filterMap _ ?_
  intro earlier later before first isFirst second isSecond
  obtain ⟨expression, _, told⟩ := Option.bind_eq_some_iff.mp isFirst
  obtain ⟨expression', _, told'⟩ := Option.bind_eq_some_iff.mp isSecond
  split at told
  · cases told
  · split at told'
    · cases told'
    · cases told
      cases told'
      exact before

theorem lineFeed_not_mem_written {simplifier : Simplifier} {texts : List String}
    (noFeed : ∀ text ∈ texts, '\n' ∉ text.toList) :
    ∀ entry ∈ entries simplifier texts, lineFeed ∉ encode entry.written := by
  intro entry member
  obtain ⟨expression, kept, rfl⟩ := List.mem_map.mp member
  obtain ⟨text, isText, held⟩ := List.mem_filterMap.mp kept
  obtain ⟨before, after, _, _, split⟩ := ((expression?_eq_some_iff text expression).mp held).around
  have clean : '\n' ∉ expression.toList := by
    intro inExpression
    apply noFeed text isText
    rw [split]
    exact List.mem_append_right _ (List.mem_append_left _ inExpression)
  rw [lineFeed_mem_encode, Entry.written]
  split
  · rename_i simplification succeeded
    have cleanResult :=
      simplifier.lineFeed_not_mem_simplified expression simplification succeeded
    simp only [String.toList_append, List.mem_append, not_or]
    exact ⟨⟨clean, by decide⟩, cleanResult⟩
  · simp only [String.toList_append, List.mem_append, not_or]
    exact ⟨⟨clean, by decide⟩, by decide⟩

theorem lineFeed_not_mem_readable {lines : List (List UInt8)}
    (noFeed : ∀ line ∈ lines, lineFeed ∉ line) : ∀ text ∈ readable lines, '\n' ∉ text.toList := by
  induction lines with
  | nil => exact fun text member => absurd member List.not_mem_nil
  | cons bytes lines ih =>
      obtain ⟨here, later⟩ := List.forall_mem_cons.mp noFeed
      rw [readable_cons]
      cases decoded : decode bytes with
      | none => exact fun text member => absurd member List.not_mem_nil
      | some text =>
          rw [List.forall_mem_cons]
          refine ⟨?_, ih later⟩
          rwa [← lineFeed_mem_encode, (decode_eq_some_iff bytes text).mp decoded]

theorem length_readable {lines : List (List UInt8)} (valid : ∀ line ∈ lines, (decode line).isSome) :
    (readable lines).length = lines.length := by
  induction lines with
  | nil => rfl
  | cons bytes lines ih =>
      obtain ⟨here, later⟩ := List.forall_mem_cons.mp valid
      obtain ⟨text, decoded⟩ := Option.isSome_iff_exists.mp here
      rw [readable_cons, decoded, List.length_cons, List.length_cons, ih later]

theorem readable_append {first second : List (List UInt8)}
    (valid : ∀ line ∈ first, (decode line).isSome) :
    readable (first ++ second) = readable first ++ readable second := by
  induction first with
  | nil => rfl
  | cons bytes lines ih =>
      obtain ⟨here, later⟩ := List.forall_mem_cons.mp valid
      obtain ⟨text, decoded⟩ := Option.isSome_iff_exists.mp here
      rw [List.cons_append, readable_cons, readable_cons, decoded, ih later]
      rfl

theorem run_unlimited (simplifier : Simplifier) (input : List UInt8) :
    let texts := readable (splitLines input)
    let report := run simplifier input .unlimited
    report.output = (entries simplifier texts).flatMap Entry.line ∧
      report.totals = (if ∀ line ∈ splitLines input, (decode line).isSome then
        .ok (.of (entries simplifier texts)) else .error .notText) ∧
      report.events.filterMap failedLine? = failures simplifier 1 texts := by
  have ran := runLines_unlimited simplifier (linesOf input) 1 .zero
  simp only [Totals.zero_add] at ran
  rw [← linesOf_eq_splitLines]
  exact ran

/-- A batch writes one line for each expression on its lines up to the first that is not
valid text, with what simplifying the expression alone gives.  If all lines are valid, its
totals are those of the expressions, and it tells of each failure with the number of its
line.  Behind the end of a line a further input goes on as if it stood alone, but for the
numbers of its lines. -/
theorem run_lines (simplifier : Simplifier) (input : List UInt8) :
    let lines := splitLines input
    let texts := readable lines
    let report := run simplifier input .unlimited
    (∀ text expression, expression? text = some expression ↔ Holds text expression) ∧
      report.output = (entries simplifier texts).flatMap Entry.line ∧
      (∀ entry ∈ entries simplifier texts, lineFeed ∉ encode entry.written) ∧
      report.totals = (if ∀ line ∈ lines, (decode line).isSome then
        .ok (.of (entries simplifier texts)) else .error .notText) ∧
      (toldFailures report.events = (failures simplifier 1 texts).map fun failure =>
        (some failure.1, some failure.2.message)) ∧
      ((failures simplifier 1 texts).Pairwise fun earlier later => earlier.1 < later.1) ∧
      ∀ rest totals, EndsLine input → report.totals = .ok totals →
        (run simplifier (input ++ rest) .unlimited).output =
            report.output ++ (run simplifier rest .unlimited).output ∧
          (run simplifier (input ++ rest) .unlimited).totals =
            (run simplifier rest .unlimited).totals.map totals.add ∧
          toldFailures (run simplifier (input ++ rest) .unlimited).events =
            toldFailures report.events ++
              (toldFailures (run simplifier rest .unlimited).events).map
                fun told => (told.1.map (· + lines.length), told.2) := by
  intro lines texts report
  obtain ⟨output, counted, failed⟩ := run_unlimited simplifier input
  have told : toldFailures report.events = (failures simplifier 1 texts).map fun failure =>
      (some failure.1, some failure.2.message) :=
    (toldFailures_eq report.events).trans (congrArg _ failed)
  refine ⟨expression?_eq_some_iff, output, ?_, counted, told, failures_pairwise simplifier 1 texts,
    ?_⟩
  · apply lineFeed_not_mem_written
    apply lineFeed_not_mem_readable
    have sameLines : linesOf input = lines := linesOf_eq_splitLines input
    rw [← sameLines]
    exact lineFeed_not_mem_linesOf input
  · intro rest totals ends succeeded
    obtain ⟨valid, rfl⟩ : (∀ line ∈ lines, (decode line).isSome) ∧
        .of (entries simplifier texts) = totals := by
      rw [counted] at succeeded
      split at succeeded
      · rename_i valid
        cases succeeded
        exact ⟨valid, rfl⟩
      · cases succeeded
    obtain ⟨restOutput, restCounted, restFailed⟩ := run_unlimited simplifier rest
    obtain ⟨bothOutput, bothCounted, bothFailed⟩ := run_unlimited simplifier (input ++ rest)
    have bothLines : splitLines (input ++ rest) = lines ++ splitLines rest := by
      simp only [lines, ← linesOf_eq_splitLines, linesOf_append input rest ends]
    rw [bothLines, readable_append valid] at bothOutput bothCounted bothFailed
    rw [entries_append] at bothOutput bothCounted
    rw [failures_append, length_readable valid] at bothFailed
    refine ⟨?_, ?_, ?_⟩
    · rw [bothOutput, List.flatMap_append, output, restOutput]
    · rw [bothCounted, restCounted, Totals.of_append]
      simp only [List.forall_mem_append, and_iff_right valid]
      split
      · rfl
      · rfl
    · rw [told, toldFailures_eq, toldFailures_eq, bothFailed, restFailed, List.map_append,
        List.map_map, List.map_map]
      rfl

/-- The failure on the third line is answered like the expressions before and after it, and
one on the second line behind them is told of with the number 5. -/
theorem run_lines_failing :
    let input := encode "A & A\r\n# note\n(A \n"
    let rest := encode "~~B\n)"
    EndsLine input ∧
      ((run ⟨500⟩ input .unlimited).output = encode "A & A => A\n(A => invalid expression\n" ∧
        (run ⟨500⟩ input .unlimited).totals = .ok ⟨2, 1, 1, 2⟩) ∧
      (run ⟨500⟩ rest .unlimited).totals = .ok ⟨2, 1, 1, 2⟩ ∧
      (run ⟨500⟩ (input ++ rest) .unlimited).totals = .ok ⟨4, 2, 2, 4⟩ ∧
      (toldFailures (run ⟨500⟩ input .unlimited).events).map Prod.fst = [some 3] ∧
      (toldFailures (run ⟨500⟩ rest .unlimited).events).map Prod.fst = [some 2] ∧
      (toldFailures (run ⟨500⟩ (input ++ rest) .unlimited).events).map Prod.fst =
        [some 3, some 5] := by
  intro input rest
  have ends : EndsLine input := by
    unfold EndsLine
    decide +kernel
  have written : (run ⟨500⟩ input .unlimited).output =
      encode "A & A => A\n(A => invalid expression\n" := by
    decide +kernel
  have counted : (run ⟨500⟩ input .unlimited).totals = .ok ⟨2, 1, 1, 2⟩ := by decide +kernel
  have countedRest : (run ⟨500⟩ rest .unlimited).totals = .ok ⟨2, 1, 1, 2⟩ := by decide +kernel
  have threeLines : (splitLines input).length = 3 := by decide +kernel
  obtain ⟨_, _, _, _, told, _, goesOn⟩ := run_lines ⟨500⟩ input
  obtain ⟨_, _, _, _, toldRest, _, _⟩ := run_lines ⟨500⟩ rest
  obtain ⟨_, both, toldBoth⟩ := goesOn rest _ ends counted
  have first : toldFailures (run ⟨500⟩ input .unlimited).events =
      [(some 3, some "Unbalanced parenthesis at token 0. Input: \"(A\"")] :=
    told.trans (by decide +kernel)
  have second : toldFailures (run ⟨500⟩ rest .unlimited).events =
      [(some 2, some "Unbalanced parenthesis at token 0. Input: \")\"")] :=
    toldRest.trans (by decide +kernel)
  rw [countedRest] at both
  rw [first, second, threeLines] at toldBoth
  exact ⟨ends, ⟨written, counted⟩, countedRest, both, congrArg _ first, congrArg _ second,
    congrArg _ toldBoth⟩

end Batch

end BoolSimplify
