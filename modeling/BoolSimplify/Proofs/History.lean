/-
Runs with a history.

The steps of a run share its budget and its counters.  A step reads the counters only
to add to them and to see how many passes are left, so that one with a history goes as
a first one with the remaining budget does.  The main statement says so for steps of
both kinds after any others, and that a run can succeed only as often as it has passes.
-/

import BoolSimplify.Proofs.Budget

namespace BoolSimplify

/-! ### Counting on -/

theorem Stats.add_countPass (used stats : Stats) (replacements : Nat) :
    used.add (stats.countPass replacements) = (used.add stats).countPass replacements := by
  simp only [add, countPass, Nat.add_assoc]

theorem Stats.add_countGroup (used stats : Stats) :
    used.add stats.countGroup = (used.add stats).countGroup := rfl

/-- The same failure after `used` passes. -/
def Failure.later (used : Nat) : Failure → Failure
  | .nonConvergent passes left => .nonConvergent (used + passes) left
  | .unbalanced position input => .unbalanced position input

/-- The same event after `used` passes.  Only these two events tell a number of passes
before the step is over. -/
def Event.later (used : Nat) : Event → Event
  | .passEnded pass tokens => .passEnded (used + pass) tokens
  | .budgetExhausted passes tokens => .budgetExhausted (used + passes) tokens
  | event => event

theorem Pass.events_later (pass : Pass) (used number : Nat) :
    pass.events (used + number) = (pass.events number).map (Event.later used) := by
  simp [events, Event.later]

namespace Outcome

variable {First Second : Type} (used : Stats)

/-- The same step with `used` counted before. -/
def later (outcome : Outcome First) : Outcome First :=
  ⟨outcome.result.mapError (Failure.later used.passes), used.add outcome.stats,
    outcome.events.map (Event.later used.passes)⟩

theorem later_after (outcome : Outcome First) (earlier : List Event) :
    (outcome.after earlier).later used =
      (outcome.later used).after (earlier.map (Event.later used.passes)) := by
  simp only [later, after, List.map_append]

theorem later_andThen (outcome : Outcome First) {next nextLater : First → Stats → Outcome Second}
    (onward : ∀ value stats, nextLater value (used.add stats) = (next value stats).later used) :
    (outcome.later used).andThen nextLater = (outcome.andThen next).later used := by
  obtain ⟨result, stats, events⟩ := outcome
  cases result with
  | ok value =>
      change (nextLater value (used.add stats)).after _ =
        ((next value stats).after events).later used
      rw [onward, later_after]
      rfl
  | error failure => rfl

end Outcome

/-! ### Steps with a history -/

theorem runPasses_later (rules : List Rule) (budget : Nat) (tokens : List Token)
    (used stats : Stats) :
    runPasses rules budget tokens (used.add stats) =
      (runPasses rules budget tokens stats).later used := by
  induction budget generalizing tokens stats with
  | zero => rfl
  | succ budget ih =>
      have events := (runPass rules tokens).events_later used.passes
        (stats.countPass (runPass rules tokens).replacements).passes
      by_cases same : (runPass rules tokens).tokens = tokens
      · simp only [runPasses, if_pos same, ← Stats.add_countPass]
        exact congrArg (Outcome.mk _ _) events
      · simp only [runPasses, if_neg same, ← Stats.add_countPass]
        rw [ih, Outcome.later_after, ← events]
        rfl

namespace Engine

variable (engine : Engine)

/-- The engine with the passes that are left of its budget. -/
def remaining (used : Stats) : Engine :=
  { engine with maxPasses := engine.maxPasses - used.passes }

theorem fixedPoint_later (tokens : List Token) (used stats : Stats) :
    engine.fixedPoint tokens (used.add stats) =
      ((engine.remaining used).fixedPoint tokens stats).later used := by
  unfold fixedPoint
  rw [runPasses_later]
  change (runPasses _ (_ - (_ + _)) _ _).later used = _
  rw [← Nat.sub_sub]
  rfl

theorem simplifyFrom_later (input tokens collected : List Token) (position : Nat)
    (groups : List OpenGroup) (used stats : Stats) :
    engine.simplifyFrom input position tokens collected groups (used.add stats) =
      ((engine.remaining used).simplifyFrom input position tokens collected groups stats).later
        used := by
  induction tokens generalizing collected position groups stats with
  | nil =>
      cases groups with
      | nil => exact engine.fixedPoint_later collected.reverse used stats
      | cons group groups => rfl
  | cons token rest ih =>
      rcases token.opening_or_closing_or_plain with rfl | rfl | plain
      · exact ih _ _ _ _
      · cases groups with
        | nil => rfl
        | cons group groups =>
            rw [simplifyFrom, simplifyFrom, fixedPoint_later]
            apply Outcome.later_andThen
            intro interior stats
            rw [← Stats.add_countGroup, ih, Outcome.later_after]
            rfl
      · rw [engine.simplifyFrom_plain _ _ _ _ _ _ _ plain,
          (engine.remaining used).simplifyFrom_plain _ _ _ _ _ _ _ plain]
        exact ih _ _ _ _

theorem perform_later (step : Step) (used : Stats) :
    engine.perform step used = ((engine.remaining used).perform step .zero).later used := by
  cases step with
  | simplify tokens => exact engine.simplifyFrom_later tokens tokens [] 0 [] used .zero
  | fixedPoint tokens => exact engine.fixedPoint_later tokens used .zero

theorem perform_spends (step : Step) (stats : Stats) :
    (engine.perform step stats).Spends stats.passes engine.maxPasses := by
  cases step with
  | simplify tokens => exact engine.simplifyFrom_spends tokens tokens [] 0 [] stats
  | fixedPoint tokens => exact engine.fixedPoint_spends tokens stats

theorem perform_ends (step : Step) (stats : Stats) (started : stats.passes ≤ engine.maxPasses) :
    (∃ tokens, (engine.perform step stats).result = .ok tokens) ∨
      (∃ position input, (engine.perform step stats).result = .error (.unbalanced position input)) ∨
      (engine.perform step stats).Exhausts engine.maxPasses := by
  have within := (engine.perform_spends step stats).within
  cases ended : (engine.perform step stats).result with
  | ok tokens => exact .inl ⟨tokens, rfl⟩
  | error failure =>
      have cause : (engine.maxPasses ≤ (engine.perform step stats).stats.passes ∧
            ∃ left, failure = .nonConvergent (engine.perform step stats).stats.passes left) ∨
          ∃ position input, failure = .unbalanced position input := by
        cases step with
        | simplify tokens =>
            exact (engine.simplify_failsForCause tokens stats failure ended).imp_right
              fun ⟨position, unbalanced, _⟩ => ⟨position, tokens, unbalanced⟩
        | fixedPoint tokens =>
            exact .inl (engine.fixedPoint_failsByBudget tokens stats failure ended)
      rcases cause with ⟨allUsed, left, rfl⟩ | ⟨position, input, rfl⟩
      · have noneLeft : (engine.perform step stats).stats.passes = engine.maxPasses := by omega
        rw [noneLeft] at ended
        exact .inr (.inr ⟨noneLeft, left, ended⟩)
      · exact .inr (.inl ⟨position, input, rfl⟩)

/-! ### Sequences of steps -/

def statsAfter (engine : Engine) : (steps : List Step) → Stats → Stats
  | [], stats => stats
  | step :: steps, stats => engine.statsAfter steps (engine.perform step stats).stats

theorem performAll_append (earlier later : List Step) (stats : Stats) :
    engine.performAll (earlier ++ later) stats =
      engine.performAll earlier stats ++
        engine.performAll later (engine.statsAfter earlier stats) := by
  induction earlier generalizing stats with
  | nil => rfl
  | cons step earlier ih => exact congrArg (List.cons _) (ih _)

theorem statsAfter_within (steps : List Step) (stats : Stats) :
    (engine.statsAfter steps stats).passes ≤ max stats.passes engine.maxPasses := by
  induction steps generalizing stats with
  | nil => exact Nat.le_max_left _ _
  | cons step steps ih =>
      have within := (engine.perform_spends step stats).within
      have later := ih (engine.perform step stats).stats
      rw [statsAfter]
      omega

theorem performAll_fails (steps : List Step) (stats : Stats)
    (exhausted : engine.maxPasses ≤ stats.passes) :
    ∀ outcome ∈ engine.performAll steps stats, ∀ tokens, outcome.result ≠ .ok tokens := by
  induction steps generalizing stats with
  | nil => exact nofun
  | cons step steps ih =>
      have spends := engine.perform_spends step stats
      intro outcome member tokens succeeded
      rcases List.mem_cons.mp member with rfl | later
      · have onePass := spends.lt_of_ok tokens succeeded
        have within := spends.within
        omega
      · exact ih _ (Nat.le_trans exhausted spends.le) outcome later tokens succeeded

theorem performAll_exhausted (steps : List Step) (stats : Stats)
    (started : stats.passes ≤ engine.maxPasses) :
    (engine.performAll steps stats).Pairwise fun earlier later =>
      (∃ passes left, earlier.result = .error (.nonConvergent passes left)) →
        ∀ tokens, later.result ≠ .ok tokens := by
  induction steps generalizing stats with
  | nil => exact .nil
  | cons step steps ih =>
      refine .cons ?_ (ih _ ?_)
      · rintro later member ⟨passes, left, failed⟩
        apply engine.performAll_fails steps _ _ later member
        rcases engine.perform_ends step stats started with
          ⟨tokens, succeeded⟩ | ⟨position, input, unbalanced⟩ | ⟨noneLeft, _⟩
        · cases failed.symm.trans succeeded
        · cases failed.symm.trans unbalanced
        · exact Nat.le_of_eq noneLeft.symm
      · have within := (engine.perform_spends step stats).within
        omega

theorem performAll_successes (steps : List Step) (stats : Stats) :
    stats.passes + (engine.performAll steps stats).countP (·.result.isOk) ≤
      max stats.passes engine.maxPasses := by
  induction steps generalizing stats with
  | nil => exact Nat.le_max_left _ _
  | cons step steps ih =>
      have spends := engine.perform_spends step stats
      have first := spends.le
      have within := spends.within
      have later := ih (engine.perform step stats).stats
      rw [performAll, List.countP_cons]
      cases ended : (engine.perform step stats).result with
      | ok tokens =>
          have onePass := spends.lt_of_ok tokens ended
          change _ + (_ + 1) ≤ _
          omega
      | error failure =>
          change _ + (_ + 0) ≤ _
          omega

/-- A step goes after any others as it would go first with the passes that are left.
What it counts is added to the counters before, and it names the whole budget if it
runs out of passes.  No step succeeds without a pass, so that none does once
the passes are used up, and no more do than the budget has passes. -/
theorem perform_after_history :
    (∀ (earlier : List Step) (step : Step),
      let used := engine.statsAfter earlier .zero
      let outcome := engine.perform step used
      let fresh := (engine.remaining used).perform step .zero
      engine.performAll (earlier ++ [step]) .zero = engine.performAll earlier .zero ++ [outcome] ∧
        used.passes ≤ engine.maxPasses ∧
        ((∃ tokens, fresh.result = .ok tokens ∧ outcome.result = .ok tokens) ∨
          (∃ position input, fresh.result = .error (.unbalanced position input) ∧
            outcome.result = .error (.unbalanced position input)) ∨
          ∃ left, fresh.result = .error (.nonConvergent (engine.maxPasses - used.passes) left) ∧
            outcome.result = .error (.nonConvergent engine.maxPasses left)) ∧
        outcome.stats = used.add fresh.stats ∧
        ∀ tokens, outcome.result = .ok tokens → used.passes < outcome.stats.passes) ∧
    ∀ steps : List Step,
      ((engine.performAll steps .zero).Pairwise fun earlier later =>
        (∃ passes left, earlier.result = .error (.nonConvergent passes left)) →
          ∀ tokens, later.result ≠ .ok tokens) ∧
      (engine.performAll steps .zero).countP (·.result.isOk) ≤ engine.maxPasses := by
  refine ⟨?_, fun steps => ⟨engine.performAll_exhausted steps .zero (Nat.zero_le _), ?_⟩⟩
  · intro earlier step used outcome fresh
    have started : used.passes ≤ engine.maxPasses := by
      have within := engine.statsAfter_within earlier .zero
      rwa [Stats.zero_passes, Nat.zero_max] at within
    have continued : outcome = fresh.later used := engine.perform_later step used
    refine ⟨engine.performAll_append earlier [step] .zero, started, ?_, ?_,
      (engine.perform_spends step used).lt_of_ok⟩
    · rw [continued, Outcome.later]
      rcases (engine.remaining used).perform_ends step .zero (Nat.zero_le _) with
        ⟨tokens, succeeded⟩ | ⟨position, input, unbalanced⟩ | ⟨_, left, failed⟩
      · exact .inl ⟨tokens, succeeded, congrArg (Except.mapError _) succeeded⟩
      · exact .inr (.inl ⟨position, input, unbalanced, congrArg (Except.mapError _) unbalanced⟩)
      · refine .inr (.inr ⟨left, failed, (congrArg (Except.mapError _) failed).trans ?_⟩)
        change Except.error (Failure.nonConvergent (_ + (_ - _)) left) = _
        rw [Nat.add_sub_cancel' started]
    · rw [continued]
      rfl
  · have within := engine.performAll_successes steps .zero
    rwa [Stats.zero_passes, Nat.zero_max, Nat.zero_add] at within

/-- The first of three steps fails behind a group.  It leaves three passes of five, and the
second one leaves one of them, which is not enough for the third. -/
theorem perform_after_history_failed :
    statsAfter ⟨catalog, 5⟩
        [.simplify (tokenize "(A & A) | (B"), .fixedPoint (tokenize "B | B")] .zero = ⟨4, 2, 1⟩ ∧
      ((performAll ⟨catalog, 5⟩ ([.simplify (tokenize "(A & A) | (B"),
          .fixedPoint (tokenize "B | B")] ++ [.simplify (tokenize "~~C")]) .zero).getLast?.map
        Outcome.result) = some (.error (.nonConvergent 5 (tokenize "C"))) := by
  have used : statsAfter ⟨catalog, 5⟩
      [.simplify (tokenize "(A & A) | (B"), .fixedPoint (tokenize "B | B")] .zero = ⟨4, 2, 1⟩ := by
    decide +kernel
  have fresh : (perform ⟨catalog, 1⟩ (.simplify (tokenize "~~C")) .zero).result =
      .error (.nonConvergent 1 (tokenize "C")) := by rfl
  obtain ⟨appended, _, ends, _⟩ := (perform_after_history ⟨catalog, 5⟩).1
    [.simplify (tokenize "(A & A) | (B"), .fixedPoint (tokenize "B | B")]
    (.simplify (tokenize "~~C"))
  rw [used] at appended ends
  refine ⟨used, ?_⟩
  rw [appended, List.getLast?_concat, Option.map_some]
  rcases ends with ⟨_, succeeded, _⟩ | ⟨_, _, unbalanced, _⟩ | ⟨left, failed, last⟩
  · cases fresh.symm.trans succeeded
  · cases fresh.symm.trans unbalanced
  · cases fresh.symm.trans failed
    exact congrArg some last

end Engine

end BoolSimplify
