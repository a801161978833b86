/-
The program without expressions among its arguments.

It then answers a batch.  The main statement says that what the batch writes reaches the
standard output completely, however the batch ends, that the exit code is zero just when
everything was read and simplified, and what stands on the error stream besides the reports
of the log: the totals, which are asked for, or the cause for which reading stopped.
-/

import BoolSimplify.CommandLine
import BoolSimplify.Proofs.Writer

namespace BoolSimplify

/-! ### Lines of the error stream -/

def begins (beginning line : String) : Bool :=
  beginning.toList.isPrefixOf line.toList

theorem begins_iff (beginning line : String) :
    begins beginning line = true ↔ beginning.toList <+: line.toList :=
  List.isPrefixOf_iff_prefix

theorem begins_append {beginning line : String} (starts : begins beginning line = true)
    (rest : String) : begins beginning (line ++ rest) = true := by
  rw [begins_iff] at starts ⊢
  rw [String.toList_append]
  exact starts.trans (List.prefix_append _ _)

theorem begins_eq_false {beginning other line : String} (starts : begins beginning line = true)
    (apart : begins beginning other = false ∧ begins other beginning = false) :
    begins other line = false := by
  obtain ⟨notLonger, notShorter⟩ := apart
  rw [Bool.eq_false_iff, ne_eq, begins_iff] at notLonger notShorter ⊢
  intro startsToo
  rcases List.prefix_or_prefix_of_prefix ((begins_iff _ _).mp starts) startsToo with
    longer | shorter
  · exact notLonger longer
  · exact notShorter shorter

theorem Event.begins_text (event : Event) : begins event.level.name event.text = true := by
  have named : begins event.level.name event.level.name = true :=
    (begins_iff _ _).mpr List.prefix_rfl
  apply List.foldlRecOn (motive := fun line : String => begins event.level.name line = true)
  · exact begins_append (begins_append named _) _
  · intro line starts field _
    obtain ⟨name, value⟩ := field
    have titled := begins_append (begins_append (begins_append starts " ") name) "="
    cases value with
    | number value => exact begins_append titled _
    | text value => exact begins_append titled _

theorem Batch.Totals.begins_text (totals : Totals) :
    begins "expressions: " totals.text = true ∧ begins "Error reading " totals.text = false := by
  have starts : begins "expressions: " totals.text = true :=
    begins_append (begins_append (begins_append (begins_append (begins_append rfl _) _) _) _) _
  exact ⟨starts, begins_eq_false starts (by decide)⟩

namespace CommandLine

namespace Options

/-- What a batch is read from: the standard input, unless another file is named. -/
def content (options : Options) (standardInput : List UInt8) (files : Files) :
    Except StreamError (List UInt8) :=
  match options.file with
  | none => .ok standardInput
  | some path => if path = "-" then .ok standardInput else files path

theorem begins_errorLine (options : Options) (error : StreamError) :
    begins "Error reading " (options.errorLine error) = true ∧
      begins "expressions: " (options.errorLine error) = false := by
  have starts : begins "Error reading " (options.errorLine error) = true := by
    rw [errorLine]
    split
    · exact begins_append (begins_append (begins_append rfl _) _) _
    · exact begins_append rfl _
  exact ⟨starts, begins_eq_false starts (by decide)⟩

theorem filter_errorLine (options : Options) (error : StreamError) :
    [options.errorLine error].filter (begins "expressions: ") = [] ∧
      [options.errorLine error].filter (begins "Error reading ") = [options.errorLine error] := by
  obtain ⟨isError, notTotals⟩ := options.begins_errorLine error
  simp only [List.filter_cons, List.filter_nil, isError, notTotals, if_true, Bool.false_eq_true,
    if_false, and_self]

theorem filter_summaryLine (options : Options) (totals : Batch.Totals) :
    let line := options.summaryLine totals.text
    line.filter (begins "Error reading ") = [] ∧ line.filter (begins "expressions: ") = line := by
  obtain ⟨isTotals, notError⟩ := totals.begins_text
  intro line
  unfold line summaryLine
  split
  · simp only [List.filter_cons, List.filter_nil, isTotals, notError, if_true,
      Bool.false_eq_true, if_false, and_self]
  · exact ⟨rfl, rfl⟩

/-- Reports of the log do not begin like the lines that are written besides them. -/
theorem filter_messages (options : Options) (events : List Event) (last : List String)
    {beginning : String} (apart : ∀ level : Level,
      begins level.name beginning = false ∧ begins beginning level.name = false) :
    (options.reports events ++ last).filter (begins beginning) =
      last.filter (begins beginning) := by
  have reports : (options.reports events).filter (begins beginning) = [] := by
    rw [List.filter_eq_nil_iff]
    intro line member
    obtain ⟨event, _, rfl⟩ := List.mem_map.mp member
    rw [begins_eq_false event.begins_text (apart event.level)]
    exact Bool.false_ne_true
  rw [List.filter_append, reports, List.nil_append]

end Options

/-! ### Answers to batches -/

theorem run_eq_answerBatch (arguments : List String) (options : Options)
    (accepted : read arguments = .ok options) (noExpressions : options.expressions = [])
    (standardInput : List UInt8) (files : Files) :
    run arguments standardInput files =
      answerBatch options (options.content standardInput files) := by
  rw [run, accepted]
  dsimp only
  rw [answer, Options.content]
  cases named : options.file with
  | none => simp only [Options.source, noExpressions, named, List.isEmpty_nil, if_true]
  | some path =>
      by_cases isInput : path = "-"
      · simp only [Options.source, noExpressions, named, isInput, List.isEmpty_nil, if_true]
      · simp only [Options.source, noExpressions, named, isInput, List.isEmpty_nil, if_true,
          if_false]

theorem answerBatch_ok (options : Options) (content : Except StreamError (List UInt8))
    (totals : Batch.Totals) :
    let report := Batch.runSource options.simplifier content
    report.totals = .ok totals →
      answerBatch options content = ⟨if totals.failed = 0 then 0 else 1, report.output,
        options.reports report.events ++ options.summaryLine totals.text⟩ := by
  intro report counted
  obtain ⟨output, sameTotals, told⟩ :=
    Buffer.write_buffered bufferCapacity options.simplifier content
  rw [answerBatch, sameTotals, counted, told, output]

theorem answerBatch_error (options : Options) (content : Except StreamError (List UInt8))
    (error : StreamError) :
    let report := Batch.runSource options.simplifier content
    report.totals = .error error →
      answerBatch options content = ⟨1, report.output,
        options.reports report.events ++ [options.errorLine error]⟩ := by
  intro report failed
  obtain ⟨output, sameTotals, told⟩ :=
    Buffer.write_buffered bufferCapacity options.simplifier content
  rw [answerBatch, sameTotals, failed, told, output]

theorem answerBatch_output (options : Options) (content : Except StreamError (List UInt8)) :
    (answerBatch options content).output =
      (Batch.runSource options.simplifier content).output := by
  cases ended : (Batch.runSource options.simplifier content).totals with
  | ok totals => rw [answerBatch_ok options content totals ended]
  | error error => rw [answerBatch_error options content error ended]

theorem answerBatch_code (options : Options) (content : Except StreamError (List UInt8)) :
    let report := Batch.runSource options.simplifier content
    let code := (answerBatch options content).code
    code ≤ 1 ∧ (code = 0 ↔ ∃ totals, report.totals = .ok totals ∧ totals.failed = 0) := by
  intro report code
  unfold code
  cases ended : report.totals with
  | ok totals =>
      rw [answerBatch_ok options content totals ended]
      by_cases noneFailed : totals.failed = 0
      · simp [noneFailed]
      · simp [noneFailed]
  | error error =>
      rw [answerBatch_error options content error ended]
      simp

theorem answerBatch_messages (options : Options) (content : Except StreamError (List UInt8)) :
    let report := Batch.runSource options.simplifier content
    let messages := (answerBatch options content).messages
    let totalsLines := messages.filter (begins "expressions: ")
    let errorLines := messages.filter (begins "Error reading ")
    (∀ totals, report.totals = .ok totals →
      errorLines = [] ∧ totalsLines = options.summaryLine totals.text) ∧
    ∀ error, report.totals = .error error →
      totalsLines = [] ∧ errorLines = [options.errorLine error] := by
  intro report messages totalsLines errorLines
  have totalsApart (level : Level) : begins level.name "expressions: " = false ∧
      begins "expressions: " level.name = false := by
    cases level
    all_goals decide
  have errorApart (level : Level) : begins level.name "Error reading " = false ∧
      begins "Error reading " level.name = false := by
    cases level
    all_goals decide
  constructor
  · intro totals ended
    unfold totalsLines errorLines messages
    rw [answerBatch_ok options content totals ended, options.filter_messages _ _ totalsApart,
      options.filter_messages _ _ errorApart]
    exact options.filter_summaryLine totals
  · intro error ended
    unfold totalsLines errorLines messages
    rw [answerBatch_error options content error ended, options.filter_messages _ _ totalsApart,
      options.filter_messages _ _ errorApart]
    exact options.filter_errorLine error

end CommandLine

end BoolSimplify
