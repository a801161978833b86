/-
How failures show in the output of a batch.

What stands in place of a result that could not be computed is a text like others, and
unknown words are carried through to results.  The main statement counts the lines that end
like the line of a failure: besides the failures these are the expressions with a result
that ends like that, and their last words are those of the mark.
-/

import BoolSimplify.Proofs.Batch
import BoolSimplify.Proofs.Fragments
import Mathlib.Data.List.Infix

namespace BoolSimplify

/-! ### Marked text -/

/-- The end of the line of an expression that failed. -/
def failureMark : String := " => " ++ invalidExpression

def Marked (text : String) : Prop :=
  failureMark.toList <:+ text.toList

instance (text : String) : Decidable (Marked text) :=
  inferInstanceAs (Decidable (failureMark.toList <:+ text.toList))

/-- A result that makes a line look like that of a failure. -/
def Mistakable (simplified : String) : Prop :=
  simplified = invalidExpression ∨ simplified = "=> " ++ invalidExpression ∨ Marked simplified

instance (simplified : String) : Decidable (Mistakable simplified) :=
  inferInstanceAs (Decidable (_ ∨ _ ∨ _))

theorem mark_eq_arrow_append : failureMark.toList = " => ".toList ++ invalidExpression.toList :=
  String.toList_append

theorem mark_eq_space_append :
    failureMark.toList = [' '] ++ ("=> " ++ invalidExpression).toList := by
  decide +kernel

/-- Where the mark begins in the arrow before a result, it has the whole arrow there or its last
character. -/
theorem mark_front (front rest : List Char) (split : failureMark.toList = front ++ rest)
    (meets : front <:+ " => ".toList ∨ " => ".toList <:+ front) :
    front = [] ∨ front = [' '] ∨ front = " => ".toList := by
  have table : ∀ front ∈ failureMark.toList.inits,
      front <:+ " => ".toList ∨ " => ".toList <:+ front →
        front = [] ∨ front = [' '] ∨ front = " => ".toList := by
    decide +kernel
  apply table front _ meets
  rw [List.mem_inits, split]
  exact List.prefix_append front rest

/-- Only the result decides whether a line with an arrow before it is marked. -/
theorem marked_answer_iff (expression simplified : String) :
    Marked (expression ++ " => " ++ simplified) ↔ Mistakable simplified := by
  rw [Marked, String.toList_append, String.toList_append]
  have arrow : " => ".toList <:+ expression.toList ++ " => ".toList := List.suffix_append _ _
  constructor
  · rintro ⟨before, whole⟩
    rcases List.append_eq_append_iff.mp whole with ⟨front, lineFront, split⟩ | ⟨inside, _, isSuffix⟩
    · have isFront : front <:+ expression.toList ++ " => ".toList := ⟨before, lineFront.symm⟩
      rcases mark_front front _ split
        (List.suffix_or_suffix_of_suffix isFront arrow) with rfl | rfl | rfl
      · exact .inr (.inr ⟨[], split⟩)
      · rw [mark_eq_space_append] at split
        exact .inr (.inl (String.toList_injective (List.append_cancel_left split).symm))
      · rw [mark_eq_arrow_append] at split
        exact .inl (String.toList_injective (List.append_cancel_left split).symm)
    · exact .inr (.inr ⟨inside, isSuffix.symm⟩)
  · rintro (rfl | rfl | marked)
    · rw [mark_eq_arrow_append]
      exact List.suffix_append_self_iff.mpr arrow
    · rw [mark_eq_space_append]
      have space : [' '] <:+ " => ".toList := by decide
      exact List.suffix_append_self_iff.mpr (space.trans arrow)
    · exact List.suffix_append_of_suffix marked

/-! ### Words of marked text -/

theorem tokenize_append_blank (front rest : String)
    (blank : ∃ char ∈ rest.toList.head?, isBlank char = true) :
    tokenize (front ++ rest) = tokenize front ++ tokenize rest := by
  have cut : CutBetween front rest := by
    obtain ⟨char, starts, isBlankChar⟩ := blank
    exact .inr (.inr (.inr ⟨char, starts, .inl isBlankChar⟩))
  rw [tokenize, (fragments_append_iff front rest).mpr cut, List.map_append]
  rfl

theorem Mistakable.words_suffix {simplified : String} (mistakable : Mistakable simplified) :
    ["invalid", "expression"] <:+ words (tokenize simplified) := by
  rcases mistakable with rfl | rfl | ⟨front, whole⟩
  · decide +kernel
  · decide +kernel
  · have spelled : simplified = String.ofList front ++ failureMark := by
      apply String.toList_injective
      rw [String.toList_append, String.toList_ofList, whole]
    rw [spelled, tokenize_append_blank _ _ ⟨' ', rfl, rfl⟩, words_append]
    apply List.suffix_append_of_suffix
    decide +kernel

namespace Simplifier

/-- An expression whose result can be mistaken ends with the same words. -/
theorem words_of_mistakable (simplifier : Simplifier) (expression : String)
    (simplification : Simplification)
    (succeeded : (simplifier.simplify expression).result = .ok simplification)
    (mistakable : Mistakable simplification.simplified) :
    ["invalid", "expression"] <:+ words (tokenize expression) := by
  obtain ⟨tokens, found, rendered⟩ := simplifier.simplify_eq_ok expression simplification succeeded
  have sameWords : words tokens = words (tokenize expression) :=
    lifts_words.simplify
      (fun rule member _ _ replaced => (shrinks_of_catalog rule member).words_eq replaced)
      (tokenize expression) tokens .zero found
  have ends := mistakable.words_suffix
  rwa [rendered, simplifier.tokenize_render_simplified expression tokens found, sameWords] at ends

end Simplifier

/-! ### Lines of output -/

namespace Batch

/-- Whether an expression was simplified, with a result that can be mistaken. -/
def Entry.mistakable (entry : Entry) : Bool :=
  entry.result.toOption.any fun simplification => Mistakable simplification.simplified

theorem Entry.marked_iff (entry : Entry) :
    Marked entry.written ↔ entry.failed = true ∨ entry.mistakable = true := by
  obtain ⟨expression, result⟩ := entry
  cases result with
  | error failure =>
      have marked := (marked_answer_iff expression invalidExpression).mpr (.inl rfl)
      exact iff_of_true marked (.inl rfl)
  | ok simplification =>
      have result := marked_answer_iff expression simplification.simplified
      refine result.trans (decide_eq_true_iff.symm.trans ?_)
      exact (or_iff_right Bool.false_ne_true).symm

theorem Entry.not_mistakable {entry : Entry} (failed : entry.failed = true) :
    entry.mistakable = false := by
  obtain ⟨expression, result⟩ := entry
  cases result with
  | error failure => rfl
  | ok simplification => cases failed

theorem countP_marked (entries : List Entry) :
    entries.countP (fun entry => Marked entry.written) =
      entries.countP Entry.failed + entries.countP Entry.mistakable := by
  induction entries with
  | nil => rfl
  | cons entry entries ih =>
      rw [List.countP_cons, List.countP_cons, List.countP_cons, ih]
      simp only [decide_eq_true_eq, entry.marked_iff]
      by_cases failed : entry.failed = true
      · rw [if_pos (.inl failed), if_pos failed, entry.not_mistakable failed]
        simp only [Bool.false_eq_true, if_false]
        omega
      · simp only [failed, Bool.false_eq_true, false_or, if_false]
        omega

theorem getLast?_written {simplifier : Simplifier} {texts : List String} :
    ∀ entry ∈ entries simplifier texts, entry.written.toList.getLast? ≠ some '\r' := by
  intro entry member
  obtain ⟨expression, kept, rfl⟩ := List.mem_map.mp member
  rw [Entry.written]
  split
  · rename_i simplification succeeded
    have blank := simplifier.blank_of_mem_simplified expression simplification succeeded
    rw [String.toList_append, List.getLast?_append, String.toList_append, List.getLast?_append]
    cases last : simplification.simplified.toList.getLast? with
    | none => exact fun isReturn => absurd (Option.some.inj isReturn) (by decide)
    | some char =>
        intro isReturn
        obtain rfl := Option.some.inj isReturn
        exact absurd (blank '\r' (List.mem_of_getLast? last) rfl) (by decide)
  · rw [String.toList_append, List.getLast?_append]
    exact fun isReturn => absurd (Option.some.inj isReturn) (by decide)

theorem linesOf_output (simplifier : Simplifier) (input : List UInt8) :
    linesOf (run simplifier input .unlimited).output =
      (entries simplifier (readable (splitLines input))).map fun entry => encode entry.written := by
  obtain ⟨output, _, _⟩ := run_unlimited simplifier input
  have pieces : (entries simplifier (readable (splitLines input))).flatMap Entry.line =
      ((entries simplifier (readable (splitLines input))).map fun entry =>
        encode entry.written).flatMap fun line => line ++ [lineFeed] := by
    rw [List.flatMap_map]
    rfl
  rw [output, pieces]
  apply linesOf_lines
  rw [List.forall_mem_map]
  intro entry member
  refine ⟨?_, getLast?_encode _ (getLast?_written entry member)⟩
  refine lineFeed_not_mem_written (lineFeed_not_mem_readable ?_) entry member
  rw [← linesOf_eq_splitLines]
  exact lineFeed_not_mem_linesOf input

theorem words_of_mem_entries {simplifier : Simplifier} {texts : List String} {entry : Entry}
    (member : entry ∈ entries simplifier texts) (mistakable : entry.mistakable = true) :
    ["invalid", "expression"] <:+ words (tokenize entry.expression) := by
  obtain ⟨expression, _, rfl⟩ := List.mem_map.mp member
  rw [Entry.mistakable] at mistakable
  cases ended : (simplifier.simplify expression).result with
  | error failure =>
      rw [ended] at mistakable
      cases mistakable
  | ok simplification =>
      rw [ended] at mistakable
      exact simplifier.words_of_mistakable expression simplification ended
        (of_decide_eq_true mistakable)

/-- A batch of a text writes a line for each expression, and the line is marked just when the
expression failed or has a result that can be mistaken.  The marked lines are as many as both
together.  There is no such result where no expression ends with the words of the mark. -/
theorem run_marks_failures (simplifier : Simplifier) (text : String) :
    let answered := entries simplifier (readable (splitLines (encode text)))
    let lines := answered.map Entry.written
    let report := run simplifier (encode text) .unlimited
    linesOf report.output = lines.map encode ∧
      (∀ entry ∈ answered,
        Marked entry.written ↔ entry.failed = true ∨ entry.mistakable = true) ∧
      ∃ totals, report.totals = .ok totals ∧
        lines.countP (fun line => Marked line) = totals.failed + answered.countP Entry.mistakable ∧
        ((∀ entry ∈ answered, ¬["invalid", "expression"] <:+ words (tokenize entry.expression)) →
          lines.countP (fun line => Marked line) = totals.failed) := by
  intro answered lines report
  obtain ⟨_, counted, _⟩ := run_unlimited simplifier (encode text)
  have valid : ∀ line ∈ splitLines (encode text), (decode line).isSome := by
    rw [← linesOf_eq_splitLines]
    exact decode_linesOf_encode text
  have marks : lines.countP (fun line => Marked line) =
      answered.countP Entry.failed + answered.countP Entry.mistakable := by
    rw [List.countP_map]
    exact countP_marked answered
  refine ⟨?_, fun entry _ => entry.marked_iff, .of answered, counted.trans (if_pos valid), marks, ?_⟩
  · rw [linesOf_output, List.map_map]
    rfl
  · intro otherWords
    have none : answered.countP Entry.mistakable = 0 := by
      rw [List.countP_eq_zero]
      exact fun entry member mistakable =>
        otherWords entry member (words_of_mem_entries member mistakable)
    rw [marks, none]
    rfl

/-- Both words occur in the first expression, and in the other order. -/
theorem run_marks_failures_reversed :
    let text := "expression & ~~A | invalid\n# note\n(A | invalid\n"
    (∀ entry ∈ entries ⟨500⟩ (readable (splitLines (encode text))),
        ¬["invalid", "expression"] <:+ words (tokenize entry.expression)) ∧
      (run ⟨500⟩ (encode text) .unlimited).totals = .ok ⟨2, 1, 1, 2⟩ ∧
      ∃ lines : List String,
        linesOf (run ⟨500⟩ (encode text) .unlimited).output = lines.map encode ∧
          lines.countP (fun line => Marked line) = 1 := by
  intro text
  have otherWords : ∀ entry ∈ entries ⟨500⟩ (readable (splitLines (encode text))),
      ¬["invalid", "expression"] <:+ words (tokenize entry.expression) := by
    decide +kernel
  have counted : (run ⟨500⟩ (encode text) .unlimited).totals = .ok ⟨2, 1, 1, 2⟩ := by
    decide +kernel
  obtain ⟨written, _, totals, sameTotals, _, onlyFailures⟩ := run_marks_failures ⟨500⟩ text
  cases counted.symm.trans sameTotals
  exact ⟨otherWords, counted, _, written, onlyFailures otherWords⟩

theorem run_marks_success :
    let report := run ⟨500⟩ (encode "invalid expression\n") .unlimited
    (linesOf report.output = ["invalid expression => invalid expression"].map encode ∧
        Marked "invalid expression => invalid expression" ∧
        report.totals = .ok ⟨1, 0, 0, 1⟩) ∧
      ¬∀ (simplifier : Simplifier) (text : String) (lines : List String) (totals : Totals),
        linesOf (run simplifier (encode text) .unlimited).output = lines.map encode →
          (run simplifier (encode text) .unlimited).totals = .ok totals →
            lines.countP (fun line => Marked line) = totals.failed := by
  intro report
  have written : linesOf report.output =
      ["invalid expression => invalid expression"].map encode := by
    decide +kernel
  have counted : report.totals = .ok ⟨1, 0, 0, 1⟩ := by decide +kernel
  have marked : Marked "invalid expression => invalid expression" := by decide +kernel
  refine ⟨⟨written, marked, counted⟩, ?_⟩
  intro onlyFailures
  have same := onlyFailures ⟨500⟩ "invalid expression\n" _ _ written counted
  rw [List.countP_singleton, if_pos (decide_eq_true marked)] at same
  cases same

end Batch

end BoolSimplify
