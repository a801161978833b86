/-
Which results differ from their input.

Whether something changed is asked of two texts in normal layout, and says nothing of the
work in between.  A run without replacements that keeps all parentheses gives back the
tokens it was given, and any other run gives back fewer.  The main statement says that
the two texts differ in just those runs in which something was done.
-/

import BoolSimplify.Proofs.Counters

namespace BoolSimplify

/-! ### Runs in which nothing is done -/

namespace Engine

variable (engine : Engine)

/-- The tokens of all levels that are not complete, with the `(` of each. -/
def pending (collected : List Token) : (groups : List OpenGroup) → List Token
  | [] => collected.reverse
  | group :: groups => pending group.around groups ++ .opening :: collected.reverse

theorem pending_append (flat collected : List Token) (groups : List OpenGroup) :
    pending (flat.reverse ++ collected) groups = pending collected groups ++ flat := by
  cases groups with
  | nil => rw [pending, pending, List.reverse_append, List.reverse_reverse]
  | cons group groups =>
      rw [pending, pending, List.reverse_append, List.reverse_reverse, List.append_assoc,
        List.cons_append]

theorem fixedPoint_idle (tokens reached : List Token) (stats : Stats)
    (succeeded : (engine.fixedPoint tokens stats).result = .ok reached)
    (noReplacement : (engine.fixedPoint tokens stats).stats.replacements = stats.replacements) :
    reached = tokens := by
  obtain ⟨count, replacements, rewritten⟩ :=
    (engine.fixedPoint_settles tokens reached stats succeeded).rewrites
  have none : count = 0 := by omega
  subst none
  exact rewritten.eq_of_zero

/-- Without replacements every group is put back as it was read, unless it goes without
its parentheses. -/
theorem simplifyFrom_idle (input tokens collected result : List Token) (position : Nat)
    (groups : List OpenGroup) (stats : Stats)
    (succeeded : (engine.simplifyFrom input position tokens collected groups stats).result =
      .ok result)
    (noReplacement : (engine.simplifyFrom input position tokens collected groups
      stats).stats.replacements = stats.replacements)
    (allKept : (engine.simplifyFrom input position tokens collected groups stats).unwrapped = 0) :
    result = pending collected groups ++ tokens := by
  induction tokens generalizing position collected groups stats with
  | nil =>
      cases groups with
      | nil =>
          rw [List.append_nil]
          exact engine.fixedPoint_idle collected.reverse result stats succeeded noReplacement
      | cons group groups => cases succeeded
  | cons token rest ih =>
      rcases token.opening_or_closing_or_plain with rfl | rfl | plain
      · have opened := ih _ _ _ _ succeeded noReplacement allKept
        rwa [pending, List.reverse_nil, List.append_assoc] at opened
      · cases groups with
        | nil => cases succeeded
        | cons group groups =>
            obtain ⟨interior, reached, _⟩ := Outcome.andThen_eq_ok _ _ _ succeeded
            rw [simplifyFrom, Outcome.andThen, reached] at succeeded noReplacement allKept
            rw [Outcome.unwrapped_group _ _ (engine.fixedPoint_closedGroups _ _)] at allKept
            obtain ⟨count, inside, _⟩ :=
              (engine.fixedPoint_settles collected.reverse interior stats reached).rewrites
            have behind := (engine.simplifyFrom_accounted input rest
              ((asOperand interior).reverse ++ group.around) (position + 1) groups
              (engine.fixedPoint collected.reverse stats).stats.countGroup).replacements
            simp only [Outcome.after, Stats.countGroup] at noReplacement behind
            have kept : interior = collected.reverse :=
              engine.fixedPoint_idle _ interior stats reached (by omega)
            have later := ih ((asOperand interior).reverse ++ group.around) (position + 1) groups
              (engine.fixedPoint collected.reverse stats).stats.countGroup succeeded
              (by simp only [Stats.countGroup]; omega) (by omega)
            have inParentheses : isOperand interior = false := by
              cases single : isOperand interior with
              | false => rfl
              | true =>
                  rw [single, if_pos rfl] at allKept
                  cases allKept
            rw [pending_append, asOperand, inParentheses, if_neg Bool.false_ne_true, kept] at later
            rw [later, pending]
            simp only [List.append_assoc, List.cons_append, List.nil_append]
      · rw [engine.simplifyFrom_plain _ _ _ _ _ _ _ plain] at succeeded noReplacement allKept
        have later := ih _ _ _ _ succeeded noReplacement allKept
        have oneMore := pending_append [token] collected groups
        rw [List.reverse_singleton, List.singleton_append] at oneMore
        rw [later, oneMore, List.append_assoc, List.singleton_append]

end Engine

/-! ### Tokens of a result -/

namespace Simplifier

variable (simplifier : Simplifier)

theorem simplifyTokens_shorter (tokens result : List Token)
    (succeeded : (simplifier.simplifyTokens tokens).result = .ok result)
    (work : 0 < (simplifier.simplifyTokens tokens).stats.replacements ∨
      0 < (simplifier.simplifyTokens tokens).unwrapped) : result.length < tokens.length := by
  have within : (simplifier.simplifyTokens tokens).Within .zero (tokens.count .closing)
      (0 + tokens.length) :=
    simplifier.engine.simplifyFrom_within decreases_length_catalog tokens tokens [] 0 [] .zero
  have size := (within.of_ok result succeeded).2.2
  simp only [Stats.zero, Nat.zero_add] at size
  omega

theorem simplifyTokens_idle (tokens result : List Token)
    (succeeded : (simplifier.simplifyTokens tokens).result = .ok result)
    (noWork : ¬(0 < (simplifier.simplifyTokens tokens).stats.replacements ∨
      0 < (simplifier.simplifyTokens tokens).unwrapped)) : result = tokens := by
  rw [not_or, Nat.not_lt, Nat.not_lt, Nat.le_zero, Nat.le_zero] at noWork
  exact simplifier.engine.simplifyFrom_idle tokens tokens [] result 0 [] .zero succeeded
    noWork.1 noWork.2

/-! ### Texts -/

theorem simplify_of_found (text : String) (tokens : List Token)
    (found : (simplifier.simplifyTokens (tokenize text)).result = .ok tokens) :
    (simplifier.simplify text).result =
        .ok ⟨text, render tokens, (simplifier.simplifyTokens (tokenize text)).stats⟩ ∧
      (simplifier.simplify text).unwrapped =
        (simplifier.simplifyTokens (tokenize text)).unwrapped := by
  rw [simplify, Outcome.andThen, found]
  refine ⟨rfl, congrArg (List.countP _) ?_⟩
  exact List.filterMap_append.trans (List.append_nil _)

theorem changed_eq_false_iff (text : String) (tokens : List Token) (stats : Stats)
    (found : (simplifier.simplifyTokens (tokenize text)).result = .ok tokens) :
    (Simplification.mk text (render tokens) stats).changed = false ↔ tokens = tokenize text := by
  have readBack := simplifier.tokenize_render_simplified text tokens found
  have inputReadBack := tokenize_render (tokenize text) (legible_of_mem_tokenize text)
  rw [Simplification.changed, bne_eq_false_iff_eq]
  constructor
  · intro sameText
    have sameTokens := congrArg tokenize sameText
    exact (inputReadBack.symm.trans (sameTokens.trans readBack)).symm
  · exact fun same => by rw [same]

/-- A result differs from its input exactly when it has fewer tokens, and exactly when a
replacement was made or a group was put back without its parentheses.  Otherwise it has
the tokens of the input.  All texts with the same tokens agree in that. -/
theorem changed_iff (text : String) (simplification : Simplification)
    (succeeded : (simplifier.simplify text).result = .ok simplification) :
    (simplification.changed = true ↔
      (tokenize simplification.simplified).length < (tokenize text).length) ∧
    (simplification.changed = true ↔ 0 < simplification.stats.replacements ∨
      0 < (simplifier.simplify text).unwrapped) ∧
    (simplification.changed = false → tokenize simplification.simplified = tokenize text) ∧
    ∀ respaced, tokenize respaced = tokenize text → ∃ again,
      (simplifier.simplify respaced).result = .ok again ∧
        again.changed = simplification.changed := by
  obtain ⟨tokens, found, _⟩ := simplifier.simplify_eq_ok text simplification succeeded
  obtain ⟨whole, sameUnwrapped⟩ := simplifier.simplify_of_found text tokens found
  cases succeeded.symm.trans whole
  have unchanged := simplifier.changed_eq_false_iff text tokens
    (simplifier.simplifyTokens (tokenize text)).stats found
  have differs := not_congr unchanged
  rw [Bool.not_eq_false] at differs
  have shorter := simplifier.simplifyTokens_shorter (tokenize text) tokens found
  have work (others : tokens ≠ tokenize text) :
      0 < (simplifier.simplifyTokens (tokenize text)).stats.replacements ∨
        0 < (simplifier.simplifyTokens (tokenize text)).unwrapped := by
    by_contra noWork
    exact others (simplifier.simplifyTokens_idle _ tokens found noWork)
  have others (fewer : tokens.length < (tokenize text).length) : tokens ≠ tokenize text := by
    rintro rfl
    exact Nat.lt_irrefl _ fewer
  rw [sameUnwrapped, simplifier.tokenize_render_simplified text tokens found, differs]
  refine ⟨⟨fun differ => shorter (work differ), others⟩,
    ⟨work, fun someWork => others (shorter someWork)⟩, unchanged.mp, ?_⟩
  · intro respaced same
    have foundAgain := found
    rw [← same] at foundAgain
    refine ⟨_, (simplifier.simplify_of_found respaced tokens foundAgain).1, ?_⟩
    simp only [Simplification.changed, same]

/-- Three texts: in the first only a group around a single letter makes the difference, in the
second only a replacement does, and in the third only the spaces are others. -/
theorem changed_iff_unwrapped :
    ((Simplifier.mk 5).simplify "( A )|(B & foo)").result =
        .ok ⟨"( A )|(B & foo)", "A | (B & foo)", ⟨3, 0, 2⟩⟩ ∧
      0 < ((Simplifier.mk 5).simplify "( A )|(B & foo)").unwrapped ∧
      (Simplification.mk "( A )|(B & foo)" "A | (B & foo)" ⟨3, 0, 2⟩).changed = true ∧
      (tokenize "A | (B & foo)").length < (tokenize "( A )|(B & foo)").length ∧
      (∃ again, ((Simplifier.mk 5).simplify "(A) | (B&foo)").result = .ok again ∧
        again.changed = true) ∧
      ((Simplifier.mk 5).simplify "A&A|(B & foo)").result =
        .ok ⟨"A&A|(B & foo)", "A | (B & foo)", ⟨3, 1, 1⟩⟩ ∧
      ((Simplifier.mk 5).simplify "A&A|(B & foo)").unwrapped = 0 ∧
      (Simplification.mk "A&A|(B & foo)" "A | (B & foo)" ⟨3, 1, 1⟩).changed = true ∧
      (tokenize "A | (B & foo)").length < (tokenize "A&A|(B & foo)").length ∧
      ((Simplifier.mk 5).simplify "A|(B & foo)").result =
        .ok ⟨"A|(B & foo)", "A | (B & foo)", ⟨2, 0, 1⟩⟩ ∧
      tokenize "A | (B & foo)" = tokenize "A|(B & foo)" := by
  have ungrouped : ((Simplifier.mk 5).simplify "( A )|(B & foo)").result =
      .ok ⟨"( A )|(B & foo)", "A | (B & foo)", ⟨3, 0, 2⟩⟩ := by rfl
  have unwrapped : 0 < ((Simplifier.mk 5).simplify "( A )|(B & foo)").unwrapped := by
    decide +kernel
  have replaced : ((Simplifier.mk 5).simplify "A&A|(B & foo)").result =
      .ok ⟨"A&A|(B & foo)", "A | (B & foo)", ⟨3, 1, 1⟩⟩ := by rfl
  have allKept : ((Simplifier.mk 5).simplify "A&A|(B & foo)").unwrapped = 0 := by
    decide +kernel
  have respacedOnly : ((Simplifier.mk 5).simplify "A|(B & foo)").result =
      .ok ⟨"A|(B & foo)", "A | (B & foo)", ⟨2, 0, 1⟩⟩ := by rfl
  obtain ⟨shorter, work, _, respaced⟩ := changed_iff (.mk 5) _ _ ungrouped
  obtain ⟨shorterReplaced, workReplaced, _, _⟩ := changed_iff (.mk 5) _ _ replaced
  obtain ⟨_, _, unchanged, _⟩ := changed_iff (.mk 5) _ _ respacedOnly
  have changed := work.mpr (.inr unwrapped)
  have changedReplaced := workReplaced.mpr (.inl Nat.one_pos)
  have again := respaced "(A) | (B&foo)" (by decide +kernel)
  rw [changed] at again
  exact ⟨ungrouped, unwrapped, changed, shorter.mp changed, again, replaced, allKept,
    changedReplaced, shorterReplaced.mp changedReplaced, respacedOnly,
    unchanged (by decide +kernel)⟩

end Simplifier

end BoolSimplify
