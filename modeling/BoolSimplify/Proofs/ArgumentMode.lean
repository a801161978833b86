/-
Expressions as arguments and expressions on lines.

An expression that is given as an argument is answered in two lines, and one that stands on a
line of the standard input is answered in one.  The main statement says that both answers tell
the same about each expression, that each expression is answered whatever becomes of the
others, and that the exit code is the same.
-/

import BoolSimplify.Proofs.Arguments
import BoolSimplify.Proofs.Batch
import BoolSimplify.Proofs.BatchMode
import Mathlib.Tactic.MkIffOfInductiveProp

namespace BoolSimplify

/-! ### Results of a simplifier -/

namespace Simplifier

variable (simplifier : Simplifier)

def Simplifies (expression simplified : String) : Prop :=
  ∃ result, (simplifier.simplify expression).result = .ok result ∧ result.simplified = simplified

def Fails (expression : String) : Prop :=
  ∃ failure, (simplifier.simplify expression).result = .error failure

variable {simplifier}

theorem simplifies_iff {expression : String} {result : Simplification}
    (succeeded : (simplifier.simplify expression).result = .ok result) (simplified : String) :
    simplifier.Simplifies expression simplified ↔ result.simplified = simplified := by
  constructor
  · rintro ⟨other, found, rfl⟩
    cases succeeded.symm.trans found
    rfl
  · exact fun same => ⟨result, succeeded, same⟩

theorem Simplifies.not_fails {expression simplified : String}
    (simplifies : simplifier.Simplifies expression simplified) : ¬ simplifier.Fails expression := by
  obtain ⟨result, succeeded, _⟩ := simplifies
  rintro ⟨failure, failed⟩
  cases succeeded.symm.trans failed

theorem input_of_simplify {expression : String} {result : Simplification}
    (succeeded : (simplifier.simplify expression).result = .ok result) :
    result.input = expression := by
  obtain ⟨tokens, _, written, _⟩ := Outcome.andThen_eq_ok _ _ _ succeeded
  cases written
  rfl

end Simplifier

/-! ### Expressions on lines -/

/-- Text that is the expression on a line of its own. -/
@[mk_iff]
structure OnLine (expression : String) : Prop where
  nonempty : expression ≠ ""
  trimmed : trim expression.toList = expression.toList
  oneLine : '\n' ∉ expression.toList
  notComment : expression.toList.head? ≠ some '#'

instance (expression : String) : Decidable (OnLine expression) :=
  decidable_of_iff' _ (onLine_iff expression)

namespace OnLine

variable {expression : String}

theorem expression?_eq (onLine : OnLine expression) :
    Batch.expression? expression = some expression := by
  rw [expression?_eq_some_iff]
  obtain ⟨trimmed, _⟩ := (trim_eq_iff _ _).mp onLine.trimmed
  exact ⟨onLine.nonempty, onLine.notComment, trimmed, [], [], List.forall_mem_nil _,
    List.forall_mem_nil _, (List.append_nil _).symm⟩

theorem encode_clean (onLine : OnLine expression) :
    lineFeed ∉ encode expression ∧ (encode expression).getLast? ≠ some carriageReturn := by
  obtain ⟨⟨_, ends⟩, _⟩ := (trim_eq_iff _ _).mp onLine.trimmed
  refine ⟨fun feed => onLine.oneLine ((lineFeed_mem_encode expression).mp feed), ?_⟩
  apply getLast?_encode
  intro last
  have notBlank := ends '\r' last
  exact absurd notBlank (by decide)

end OnLine

namespace Batch

theorem readable_encode (texts : List String) : readable (texts.map encode) = texts := by
  induction texts with
  | nil => rfl
  | cons text texts ih => rw [List.map_cons, readable_cons, decode_encode, ih]

theorem entries_onLine (simplifier : Simplifier) (texts : List String)
    (onLines : ∀ text ∈ texts, OnLine text) :
    entries simplifier texts =
      texts.map fun text => ⟨text, (simplifier.simplify text).result⟩ := by
  induction texts with
  | nil => rfl
  | cons text texts ih =>
      obtain ⟨here, later⟩ := List.forall_mem_cons.mp onLines
      rw [entries_held simplifier texts here.expression?_eq, ih later, List.map_cons]

theorem linesOf_expressions (expressions : List String)
    (onLines : ∀ expression ∈ expressions, OnLine expression) :
    linesOf (expressions.flatMap fun expression => encode (expression ++ "\n")) =
      expressions.map encode := by
  have lines : (expressions.flatMap fun expression => encode (expression ++ "\n")) =
      (expressions.map encode).flatMap fun line => line ++ [lineFeed] := by
    simp only [List.flatMap_map, encode_append, encode_newline]
  rw [lines]
  apply linesOf_lines
  intro line member
  obtain ⟨expression, isGiven, rfl⟩ := List.mem_map.mp member
  exact (onLines expression isGiven).encode_clean

theorem Totals.of_failed (simplifier : Simplifier) (texts : List String) :
    (Totals.of (texts.map fun text => ⟨text, (simplifier.simplify text).result⟩)).failed = 0 ↔
      ∀ text ∈ texts, ∃ simplified, simplifier.Simplifies text simplified := by
  rw [Totals.of, List.countP_eq_zero, List.forall_mem_map]
  refine forall₂_congr fun text _ => ?_
  cases ended : (simplifier.simplify text).result with
  | ok result =>
      exact iff_of_true Bool.false_ne_true ⟨result.simplified, result, ended, rfl⟩
  | error failure =>
      refine iff_of_false (absurd rfl) ?_
      rintro ⟨simplified, simplifies⟩
      exact simplifies.not_fails ⟨failure, ended⟩

theorem run_expressions (simplifier : Simplifier) (expressions : List String)
    (onLines : ∀ expression ∈ expressions, OnLine expression) :
    let input := expressions.flatMap fun expression => encode (expression ++ "\n")
    let report := run simplifier input .unlimited
    (report.output = expressions.flatMap fun expression =>
      encode (answer expression (simplifier.simplify expression).result)) ∧
    ∃ totals, report.totals = .ok totals ∧ (totals.failed = 0 ↔
      ∀ expression ∈ expressions, ∃ simplified, simplifier.Simplifies expression simplified) := by
  intro input report
  obtain ⟨output, counted, _⟩ := run_unlimited simplifier input
  rw [← linesOf_eq_splitLines, linesOf_expressions expressions onLines] at output counted
  rw [readable_encode, entries_onLine simplifier expressions onLines] at output counted
  constructor
  · rw [output, List.flatMap_map]
    refine List.flatMap_congr fun expression _ => ?_
    exact (Entry.encode_answer ⟨expression, _⟩).symm
  · refine ⟨_, counted.trans (if_pos ?_), Totals.of_failed simplifier expressions⟩
    intro line member
    obtain ⟨expression, _, rfl⟩ := List.mem_map.mp member
    rw [decode_encode]
    rfl

end Batch

/-! ### Answers -/

namespace CommandLine

/-- What answers an expression that was given as an argument. -/
def argumentAnswer (simplifier : Simplifier) (expression : String) : String :=
  match (simplifier.simplify expression).result with
  | .ok result => "Original: " ++ expression ++ "\nSimplified: " ++ result.simplified ++ "\n"
  | .error _ => "evaluation error\ninvalid expression\n"

/-- Answers to one expression that tell the same: a `block` on its own and a `line` of a
batch. -/
structure Answered (simplifier : Simplifier) (expression block line : String) : Prop where
  block_simplified : ∀ simplified,
    block = "Original: " ++ expression ++ "\nSimplified: " ++ simplified ++ "\n" ↔
      simplifier.Simplifies expression simplified
  line_simplified : ∀ simplified, simplifier.Simplifies expression simplified →
    line = expression ++ " => " ++ simplified ++ "\n"
  block_failed : block = "evaluation error\ninvalid expression\n" ↔ simplifier.Fails expression
  line_failed : simplifier.Fails expression → line = expression ++ " => invalid expression\n"

theorem answered (simplifier : Simplifier) (expression : String) :
    Answered simplifier expression (argumentAnswer simplifier expression)
      (Batch.answer expression (simplifier.simplify expression).result) := by
  have apart (simplified : String) :
      "Original: " ++ expression ++ "\nSimplified: " ++ simplified ++ "\n" ≠
        "evaluation error\ninvalid expression\n" := by
    intro same
    have original : begins "Original: " ("Original: " ++ expression ++ "\nSimplified: " ++
        simplified ++ "\n") = true :=
      begins_append (begins_append (begins_append (begins_append rfl _) _) _) _
    rw [same] at original
    exact absurd original (by decide)
  rw [argumentAnswer]
  cases ended : (simplifier.simplify expression).result with
  | ok result =>
      have simplifies : simplifier.Simplifies expression result.simplified := ⟨result, ended, rfl⟩
      constructor
      · intro simplified
        rw [Simplifier.simplifies_iff ended, String.append_left_inj, String.append_right_inj]
      · intro simplified same
        rw [← (Simplifier.simplifies_iff ended simplified).mp same]
        rfl
      · exact iff_of_false (apart result.simplified) simplifies.not_fails
      · exact fun fails => absurd fails simplifies.not_fails
  | error failure =>
      have fails : simplifier.Fails expression := ⟨failure, ended⟩
      constructor
      · exact fun simplified => iff_of_false (apart simplified).symm
          fun simplifies => simplifies.not_fails fails
      · exact fun simplified simplifies => absurd fails simplifies.not_fails
      · exact iff_of_true rfl fails
      · intro _
        rw [Batch.answer, String.append_assoc, String.append_assoc]
        rfl

theorem answerExpression_eq (options : Options) (expression : String) :
    let response := answerExpression options expression
    response.output = encode (argumentAnswer options.simplifier expression) ∧
      response.code ≤ 1 ∧ (response.code = 0 ↔
        ∃ simplified, options.simplifier.Simplifies expression simplified) := by
  rw [answerExpression, argumentAnswer]
  cases ended : (options.simplifier.simplify expression).result with
  | ok result =>
      have input := options.simplifier.input_of_simplify ended
      dsimp only
      rw [input]
      exact ⟨rfl, Nat.zero_le 1, iff_of_true rfl ⟨_, result, ended, rfl⟩⟩
  | error failure =>
      refine ⟨rfl, Nat.le_refl 1, iff_of_false Nat.one_ne_zero ?_⟩
      rintro ⟨simplified, simplifies⟩
      exact simplifies.not_fails ⟨failure, ended⟩

theorem answerExpressions_eq (options : Options) (expressions : List String) :
    let response := answerExpressions options expressions
    (response.output = expressions.flatMap fun expression =>
      encode (argumentAnswer options.simplifier expression)) ∧
    response.code ≤ 1 ∧ (response.code = 0 ↔ ∀ expression ∈ expressions,
      ∃ simplified, options.simplifier.Simplifies expression simplified) := by
  induction expressions with
  | nil => exact ⟨rfl, Nat.zero_le 1, iff_of_true rfl (List.forall_mem_nil _)⟩
  | cons expression expressions ih =>
      obtain ⟨output, atMostOne, succeeds⟩ := answerExpression_eq options expression
      obtain ⟨outputLater, atMostOneLater, succeedLater⟩ := ih
      rw [answerExpressions]
      refine ⟨?_, Nat.max_le.mpr ⟨atMostOne, atMostOneLater⟩, ?_⟩
      · rw [output, outputLater, List.flatMap_cons]
      · rw [List.forall_mem_cons, ← succeeds, ← succeedLater]
        exact Nat.max_eq_zero_iff

theorem run_eq_answerExpressions (arguments : List String) (options : Options)
    (accepted : read arguments = .ok options) (noExpressions : options.expressions = [])
    (noFile : options.file = none) (noSeparator : "--" ∉ arguments) (expressions : List String)
    (given : expressions ≠ []) (standardInput : List UInt8) (files : Files) :
    run (arguments ++ "--" :: expressions) standardInput files =
      answerExpressions { options with expressions := expressions } expressions := by
  have accepts := read_append arguments options accepted noFile noSeparator expressions
  have source : Options.source { options with expressions := expressions } =
      .arguments expressions := by
    rw [Options.source]
    exact if_neg (by rwa [List.isEmpty_iff])
  rw [noExpressions, List.nil_append] at accepts
  rw [run, accepts]
  dsimp only
  rw [answer, source]

end CommandLine

end BoolSimplify
