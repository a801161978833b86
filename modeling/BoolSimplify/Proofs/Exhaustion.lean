/-
Where an exhausted budget stops.

The budget may end between any two passes of any level, when groups inside the level are
put back already.  What is reported then is written in none of the input, but it comes from
one stretch of it: the interior of the group that would have been closed next, or all of
the tokens when no group is left.  The main statement says that on a well-formed input the
text in the failure writes an expression that is equivalent to this stretch.
-/

import BoolSimplify.Proofs.Budget
import BoolSimplify.Proofs.Counters
import BoolSimplify.Proofs.Preservation

namespace BoolSimplify

/-! ### Stretches of the input -/

/-- What is being simplified when `closed` groups are closed: the interior of the next one,
and all of the tokens when there is none. -/
def stretch (tokens : List Token) (closed : Nat) : List Token :=
  match (groups tokens)[closed]? with
  | some (first, last) => between tokens first last
  | none => tokens

theorem stretch_cases (tokens : List Token) (closed : Nat) :
    stretch tokens closed = tokens ∨ ∃ before inner after,
      tokens = before ++ .opening :: (inner ++ .closing :: after) ∧ Balanced inner ∧
        stretch tokens closed = inner := by
  unfold stretch
  cases next : (groups tokens)[closed]? with
  | none => exact .inl rfl
  | some place =>
      obtain ⟨first, last⟩ := place
      have closes := (mem_groups_iff tokens first last).mp (List.mem_of_getElem? next)
      obtain ⟨before, inner, after, split, rfl, rfl, balanced⟩ :=
        (matchingClose_eq_some_iff tokens first last).mp closes
      refine .inr ⟨before, inner, after, split, balanced, ?_⟩
      rw [split]
      exact between_group before inner after

theorem stretch_subset (tokens : List Token) (closed : Nat) : stretch tokens closed ⊆ tokens := by
  rcases stretch_cases tokens closed with whole | ⟨before, inner, after, split, _, interior⟩
  · rw [whole]
    exact List.Subset.refl tokens
  · intro token member
    rw [interior] at member
    rw [split]
    exact List.mem_append_right _ (List.mem_cons_of_mem _ (List.mem_append_left _ member))

/-- A reader that gets past a group in a list has read the interior as an expression. -/
theorem WellFormed.interior {Atom : Type} {before inner after : List (Symbol Atom)}
    (wellFormed : WellFormed (before ++ .opening :: (inner ++ .closing :: after)))
    (balanced : Balanced inner) : WellFormed inner := by
  have regroup : before ++ .opening :: (inner ++ .closing :: after) =
      before ++ ((.opening :: inner ++ [.closing]) ++ after) := by
    simp only [List.append_assoc, List.cons_append, List.nil_append]
  let assignment : Atom → Bool := fun _ => false
  rw [regroup, ← read_isSome_iff assignment, read, Reader.finish_append, Option.isSome_bind,
    Option.any_eq_true] at wellFormed
  obtain ⟨reader, _, finishes⟩ := wellFormed
  have operand := ReadAsOperand.group inner balanced assignment after
  apply (readAlike_group balanced).wellFormed_iff.mp
  cases reader with
  | operand frame outer =>
      rw [operand.1, Option.isSome_bind, Option.any_eq_true] at finishes
      obtain ⟨value, reads, _⟩ := finishes
      rw [← read_isSome_iff assignment, reads]
      rfl
  | operator disjuncts conjuncts outer =>
      rw [operand.2] at finishes
      cases finishes

theorem WellFormed.stretch {tokens : List Token} (wellFormed : WellFormed tokens) (closed : Nat) :
    WellFormed (stretch tokens closed) := by
  rcases stretch_cases tokens closed with whole | ⟨before, inner, after, split, balanced, interior⟩
  · rwa [whole]
  · rw [split] at wellFormed
    rw [interior]
    exact wellFormed.interior balanced

/-! ### Levels that are simplified in part -/

namespace Engine

/-- `left` is what becomes of `tokens` when all groups in them are simplified and put back,
and some replacements are made on the level around. -/
def SimplifiesInPart (engine : Engine) (tokens left : List Token) : Prop :=
  ∃ (forest : Forest) (first last : Stats) (flat : List Token) (count : Nat),
    forest.tokens = tokens ∧ engine.Flattens forest first flat last ∧
      Rewrites engine.rules count flat left

variable {engine : Engine}

theorem SimplifiesInPart.readAlike (faithful : Faithful engine.rules) {tokens left : List Token}
    (reached : engine.SimplifiesInPart tokens left) : ReadAlike tokens left := by
  obtain ⟨forest, first, last, flat, count, rfl, flattened, rewritten⟩ := reached
  exact (faithful.flattens flattened).1.readAlike.trans (faithful.rewrites rewritten).1

theorem SimplifiesInPart.related {Related : List Token → List Token → Prop}
    (lifts : Lifts Related) (replaces : ∀ rule ∈ engine.rules, ∀ first second,
      rule.Replaces first second → Related first second) {tokens left : List Token}
    (reached : engine.SimplifiesInPart tokens left) : Related tokens left := by
  obtain ⟨forest, first, last, flat, count, rfl, flattened, rewritten⟩ := reached
  exact lifts.trans (lifts.flattens replaces flattened) (lifts.rewrites replaces rewritten)

/-- `left` comes from the stretch of `input` behind its first `closed` groups. -/
def StopsAt (engine : Engine) (input left : List Token) (closed : Nat) : Prop :=
  closed ≤ (groups input).length ∧ engine.SimplifiesInPart (stretch input closed) left

theorem fixedPoint_stops (engine : Engine) (tokens left : List Token) (stats : Stats)
    (passes : Nat)
    (failed : (engine.fixedPoint tokens stats).result = .error (.nonConvergent passes left)) :
    (engine.fixedPoint tokens stats).stats.groups = stats.groups ∧
      ∃ count, Rewrites engine.rules count tokens left := by
  obtain ⟨count, reached, sameGroups, _, _, rewritten, ended⟩ :=
    engine.fixedPoint_counts tokens stats
  refine ⟨sameGroups, count, ?_⟩
  rcases ended with succeeded | ⟨_, stopped⟩
  · cases succeeded.symm.trans failed
  · cases stopped.symm.trans failed
    exact rewritten

theorem stopsAt_end {input collected left : List Token} {stats : Stats} {passes : Nat}
    (levels : Collected engine input collected [] stats)
    (counted : stats.groups = (groups input).length)
    (failed : (engine.fixedPoint collected.reverse stats).result =
      .error (.nonConvergent passes left)) :
    engine.StopsAt input left (engine.fixedPoint collected.reverse stats).stats.groups := by
  obtain ⟨sameGroups, count, rewritten⟩ := engine.fixedPoint_stops _ _ _ _ failed
  cases levels with
  | @outside forest first _ flat flattened =>
      have whole : stretch forest.tokens (groups forest.tokens).length = forest.tokens := by
        rw [stretch, List.getElem?_eq_none (Nat.le_refl _)]
      rw [List.reverse_reverse] at rewritten
      rw [sameGroups, counted, StopsAt, whole]
      exact ⟨Nat.le_refl _, forest, first, stats, flat, count, rfl, flattened, rewritten⟩

theorem stopsAt_closing {before rest collected left : List Token} {group : OpenGroup}
    {opened : List OpenGroup} {done later : List (Nat × Nat)} {stats : Stats} {passes : Nat}
    (levels : Collected engine before collected (group :: opened) stats)
    (places : groups (before ++ .closing :: rest) =
      done ++ (group.position, before.length) :: later)
    (counted : stats.groups = done.length)
    (failed : (engine.fixedPoint collected.reverse stats).result =
      .error (.nonConvergent passes left)) :
    engine.StopsAt (before ++ .closing :: rest) left
      (engine.fixedPoint collected.reverse stats).stats.groups := by
  obtain ⟨sameGroups, count, rewritten⟩ := engine.fixedPoint_stops _ _ _ _ failed
  have next : (groups (before ++ .closing :: rest))[done.length]? =
      some (group.position, before.length) := by
    rw [places, List.getElem?_append_right (Nat.le_refl _), Nat.sub_self]
    rfl
  have within := (List.getElem?_eq_some_iff.mp next).1
  cases levels with
  | @inside outer around flat _ first _ forest outerLevels flattened =>
      have atEnd : (outer ++ .opening :: forest.tokens).length =
          outer.length + 1 + forest.tokens.length := by
        rw [List.length_append, List.length_cons]
        omega
      have interior : stretch (outer ++ .opening :: forest.tokens ++ .closing :: rest)
          done.length = forest.tokens := by
        rw [stretch, next, atEnd, List.append_assoc, List.cons_append]
        exact between_group outer forest.tokens rest
      rw [List.reverse_reverse] at rewritten
      rw [sameGroups, counted, StopsAt, interior]
      exact ⟨Nat.le_of_lt within, forest, first, stats, flat, count, rfl, flattened, rewritten⟩

/-- The groups that are closed so far are the first of the input. -/
theorem simplifyFrom_stops (input before tokens collected left : List Token)
    (opened : List OpenGroup) (done : List (Nat × Nat)) (stats : Stats) (passes : Nat)
    (split : input = before ++ tokens) (levels : Collected engine before collected opened stats)
    (places : groups input =
      done ++ groupsFrom before.length (opened.map OpenGroup.position) tokens)
    (counted : stats.groups = done.length)
    (failed : (engine.simplifyFrom input before.length tokens collected opened stats).result =
      .error (.nonConvergent passes left)) :
    engine.StopsAt input left
      (engine.simplifyFrom input before.length tokens collected opened stats).stats.groups := by
  induction tokens generalizing before collected opened done stats with
  | nil =>
      cases opened with
      | nil =>
          have allClosed : groups input = done := places.trans (List.append_nil done)
          rw [List.append_nil] at split
          rw [← split] at levels
          rw [← allClosed] at counted
          exact stopsAt_end levels counted failed
      | cons group opened => cases failed
  | cons token rest ih =>
      have onward := split.trans (List.append_cons before token rest)
      have oneFurther : before.length + 1 = (before ++ [token]).length := by
        rw [List.length_append, List.length_singleton]
      rcases token.opening_or_closing_or_plain with rfl | rfl | plain
      · rw [groupsFrom, oneFurther] at places
        rw [simplifyFrom, oneFurther] at failed ⊢
        exact ih _ _ _ done _ onward (.inside levels (.empty stats)) places counted failed
      · cases opened with
        | nil => cases failed
        | cons group opened =>
            rw [List.map_cons, groupsFrom] at places
            cases reached : (engine.fixedPoint collected.reverse stats).result with
            | ok interior =>
                obtain ⟨_, _, sameGroups, _⟩ := engine.fixedPoint_counts collected.reverse stats
                rw [oneFurther, List.append_cons] at places
                rw [simplifyFrom, Outcome.andThen, reached, oneFurther] at failed ⊢
                refine ih _ _ opened _ _ onward (levels.close reached).2 places ?_ failed
                rw [Stats.countGroup, List.length_append, ← counted, sameGroups]
                rfl
            | error failure =>
                rw [simplifyFrom, Outcome.andThen, reached] at failed ⊢
                cases failed
                rw [split] at places ⊢
                exact stopsAt_closing levels places counted reached
      · rw [groupsFrom_plain plain, oneFurther] at places
        rw [engine.simplifyFrom_plain _ _ _ _ _ _ _ plain, oneFurther] at failed ⊢
        exact ih _ _ _ done _ onward (levels.token plain) places counted failed

theorem simplify_stops (engine : Engine) (tokens left : List Token) (passes : Nat)
    (failed : (engine.simplify tokens .zero).result = .error (.nonConvergent passes left)) :
    passes = engine.maxPasses ∧
      engine.StopsAt tokens left (engine.simplify tokens .zero).stats.groups := by
  have levels : Collected engine [] [] [] .zero := .outside (.empty .zero)
  refine ⟨?_, simplifyFrom_stops tokens [] tokens [] left [] [] .zero passes rfl levels rfl rfl
    failed⟩
  have spends : (engine.simplify tokens .zero).Spends 0 engine.maxPasses :=
    engine.simplifyFrom_spends tokens tokens [] 0 [] .zero
  rcases engine.simplify_failsForCause tokens .zero _ failed with
    ⟨allUsed, _, same⟩ | ⟨_, unbalanced, _⟩
  · cases same
    exact Nat.le_antisymm (by simpa using spends.within) allUsed
  · cases unbalanced

end Engine

/-! ### Texts -/

namespace Simplifier

variable (simplifier : Simplifier)

theorem simplify_eq_error (text : String) (failure : Failure)
    (failed : (simplifier.simplify text).result = .error failure) :
    (simplifier.simplifyTokens (tokenize text)).result = .error failure ∧
      (simplifier.simplify text).stats = (simplifier.simplifyTokens (tokenize text)).stats := by
  rw [simplify, Outcome.andThen] at failed ⊢
  cases ended : (simplifier.simplifyTokens (tokenize text)).result with
  | ok tokens =>
      rw [ended] at failed
      cases failed
  | error cause =>
      rw [ended] at failed
      cases failed
      exact ⟨rfl, rfl⟩

/-- When the budget is not enough for a text that writes an expression, all of it was used,
and the text in the failure writes an expression too.  It is equivalent to the interior of
the next group after those that were closed, in the order of their ends, and to the whole
text when all of them were. -/
theorem simplify_exhausted (text : String) (wellFormed : WellFormed (tokenize text))
    (passes : Nat) (left : List Token)
    (failed : (simplifier.simplify text).result = .error (.nonConvergent passes left)) :
    let closed := (simplifier.simplify text).stats.groups
    passes = simplifier.maxPasses ∧ closed ≤ (groups (tokenize text)).length ∧
      Equivalent (stretch (tokenize text) closed)
        (tokenize (Failure.nonConvergent passes left).expressionText) := by
  obtain ⟨stopped, sameStats⟩ := simplifier.simplify_eq_error text _ failed
  intro closed
  obtain ⟨allUsed, within, reached⟩ := simplifier.engine.simplify_stops _ left passes stopped
  have sameClosed : closed =
      (simplifier.engine.simplify (tokenize text) .zero).stats.groups :=
    congrArg Stats.groups sameStats
  rw [← sameClosed] at within reached
  have atoms := reached.related lifts_atoms
    fun rule inRules _ _ replaced => (shrinks_of_catalog rule inRules).atom_mem replaced
  have legible : ∀ token ∈ left, token.Legible := by
    apply legible_of_words
    intro word member
    exact legible_of_mem_tokenize text _ (stretch_subset _ _ (atoms _ member))
  refine ⟨allUsed, within, ?_⟩
  rw [Failure.expressionText, tokenize_render left legible]
  exact (reached.readAlike faithful_catalog).equivalent (wellFormed.stretch closed)

theorem simplify_exhausted_inside :
    WellFormed (tokenize "~(foo|(~~ B)&B) & (C)") ∧
      ((Simplifier.mk 3).simplify "~(foo|(~~ B)&B) & (C)").result =
        .error (.nonConvergent 3 (tokenize "foo | B")) ∧
      ((Simplifier.mk 3).simplify "~(foo|(~~ B)&B) & (C)").stats.groups = 1 ∧
      groups (tokenize "~(foo|(~~ B)&B) & (C)") = [(4, 8), (1, 11), (13, 15)] ∧
      Equivalent (tokenize "foo | (~~B) & B")
        (tokenize (Failure.nonConvergent 3 (tokenize "foo | B")).expressionText) := by
  have wellFormed : WellFormed (tokenize "~(foo|(~~ B)&B) & (C)") := by decide +kernel
  have failed : ((Simplifier.mk 3).simplify "~(foo|(~~ B)&B) & (C)").result =
      .error (.nonConvergent 3 (tokenize "foo | B")) := by rfl
  have closed : ((Simplifier.mk 3).simplify "~(foo|(~~ B)&B) & (C)").stats.groups = 1 := by rfl
  have next : stretch (tokenize "~(foo|(~~ B)&B) & (C)") 1 = tokenize "foo | (~~B) & B" := by
    decide +kernel
  obtain ⟨_, _, equivalent⟩ := simplify_exhausted (.mk 3) _ wellFormed 3 _ failed
  rw [closed, next] at equivalent
  exact ⟨wellFormed, failed, closed, by decide +kernel, equivalent⟩

end Simplifier

end BoolSimplify
