/-
The engine and the structure of groups.

The engine keeps the open groups on a stack of its own.  The main statements say
that on the tokens of a forest it does the same work as the recursion on the
forest, reports apart, and that it succeeds on balanced lists only.  A successful
run is then described by one rule for each way to build a forest, and keeps what
its replacements keep.
-/

import BoolSimplify.Engine.Nested
import BoolSimplify.Proofs.Rewriting

namespace BoolSimplify

/-! ### Work without reports -/

namespace Outcome

variable {First Second Third : Type}

/-- The result of a step and the counters after it, without the reports. -/
def work (outcome : Outcome First) : Except Failure First × Stats :=
  (outcome.result, outcome.stats)

theorem work_after (outcome : Outcome First) (earlier : List Event) :
    (outcome.after earlier).work = outcome.work := rfl

theorem result_of_work {first second : Outcome First} (same : first.work = second.work) :
    first.result = second.result :=
  congrArg Prod.fst same

theorem stats_of_work {first second : Outcome First} (same : first.work = second.work) :
    first.stats = second.stats :=
  congrArg Prod.snd same

theorem andThen_of_ok (outcome : Outcome First) (next : First → Stats → Outcome Second)
    (value : First) (succeeded : outcome.result = .ok value) :
    (outcome.andThen next).work = (next value outcome.stats).work := by
  rw [andThen, succeeded]
  rfl

theorem andThen_of_error (outcome : Outcome First) (next : First → Stats → Outcome Second)
    (failure : Failure) (failed : outcome.result = .error failure) :
    (outcome.andThen next).work = (.error failure, outcome.stats) := by
  rw [andThen, failed]
  rfl

theorem andThen_eq_ok (outcome : Outcome First) (next : First → Stats → Outcome Second)
    (result : Second) (succeeded : (outcome.andThen next).result = .ok result) :
    ∃ value, outcome.result = .ok value ∧ (next value outcome.stats).result = .ok result ∧
      (outcome.andThen next).stats = (next value outcome.stats).stats := by
  cases ended : outcome.result with
  | ok value =>
      have same := outcome.andThen_of_ok next value ended
      exact ⟨value, rfl, (result_of_work same).symm.trans succeeded, stats_of_work same⟩
  | error failure =>
      have failed : (outcome.andThen next).result = .error failure :=
        congrArg Prod.fst (outcome.andThen_of_error next failure ended)
      rw [succeeded] at failed
      cases failed

theorem work_andThen_congr {first second : Outcome First}
    {left right : First → Stats → Outcome Second} (sameFirst : first.work = second.work)
    (sameNext : ∀ value stats, (left value stats).work = (right value stats).work) :
    (first.andThen left).work = (second.andThen right).work := by
  have sameResult := result_of_work sameFirst
  have sameStats := stats_of_work sameFirst
  cases ended : second.result with
  | ok value =>
      rw [first.andThen_of_ok left value (sameResult.trans ended),
        second.andThen_of_ok right value ended, sameStats, sameNext]
  | error failure =>
      rw [first.andThen_of_error left failure (sameResult.trans ended),
        second.andThen_of_error right failure ended, sameStats]

theorem work_andThen_assoc (outcome : Outcome First) (next : First → Stats → Outcome Second)
    (last : Second → Stats → Outcome Third) :
    ((outcome.andThen next).andThen last).work =
      (outcome.andThen fun value stats => (next value stats).andThen last).work := by
  cases ended : outcome.result with
  | ok value =>
      have same := outcome.andThen_of_ok next value ended
      rw [work_andThen_congr same (fun _ _ => rfl), outcome.andThen_of_ok _ value ended]
  | error failure =>
      rw [outcome.andThen_of_error _ failure ended]
      have failed : (outcome.andThen next).work = (.error failure, outcome.stats) :=
        outcome.andThen_of_error next failure ended
      rw [(outcome.andThen next).andThen_of_error last failure (congrArg Prod.fst failed),
        show (outcome.andThen next).stats = outcome.stats from congrArg Prod.snd failed]

theorem work_map_andThen (outcome : Outcome First) (change : First → Second)
    (next : Second → Stats → Outcome Third) :
    ((outcome.map change).andThen next).work =
      (outcome.andThen fun value stats => next (change value) stats).work := by
  obtain ⟨result, stats, events⟩ := outcome
  cases result with
  | ok value => rfl
  | error failure => rfl

theorem map_eq_ok (outcome : Outcome First) (change : First → Second) (result : Second)
    (succeeded : (outcome.map change).result = .ok result) :
    ∃ value, outcome.result = .ok value ∧ result = change value := by
  obtain ⟨ended, stats, events⟩ := outcome
  cases ended with
  | ok value =>
      cases succeeded
      exact ⟨value, rfl, rfl⟩
  | error failure => cases succeeded

end Outcome

namespace Engine

variable (engine : Engine)

/-! ### The stack and the recursion -/

theorem simplifyFrom_plain (input : List Token) (position : Nat) (token : Token)
    (rest collected : List Token) (groups : List OpenGroup) (stats : Stats)
    (plain : token.isParenthesis = false) :
    engine.simplifyFrom input position (token :: rest) collected groups stats =
      engine.simplifyFrom input (position + 1) rest (token :: collected) groups stats := by
  cases token with
  | opening => cases plain
  | closing => cases plain
  | conj => rfl
  | disj => rfl
  | neg => rfl
  | truth value => rfl
  | atom name => rfl

/-- Where the tokens of a forest stand, the engine flattens the forest into what
the current level has collected. -/
theorem simplifyFrom_forest (input : List Token) (forest : Forest) (position : Nat)
    (rest collected : List Token) (groups : List OpenGroup) (stats : Stats) :
    (engine.simplifyFrom input position (forest.tokens ++ rest) collected groups stats).work =
      ((engine.flatten forest stats).andThen fun flat stats =>
        engine.simplifyFrom input (position + forest.tokens.length) rest
          (flat.reverse ++ collected) groups stats).work := by
  induction forest generalizing position rest collected groups stats with
  | empty => rfl
  | single token plain later ih =>
      rw [Forest.tokens, List.cons_append, engine.simplifyFrom_plain _ _ _ _ _ _ _ plain, ih]
      rw [flatten, Outcome.work_map_andThen]
      apply Outcome.work_andThen_congr rfl
      intro flat stats
      simp only [List.length_cons, List.reverse_cons, List.append_assoc, List.singleton_append,
        Nat.add_assoc, Nat.add_comm 1]
  | group inner later ihInner ihLater =>
      have opened := ihInner (position + 1) (.closing :: (later.tokens ++ rest)) []
        (⟨position, collected⟩ :: groups) stats
      rw [flatten, Outcome.work_andThen_assoc]
      simp only [Forest.tokens, List.cons_append, List.append_assoc]
      refine Eq.trans opened (Outcome.work_andThen_congr rfl ?_)
      intro flat stats
      rw [simplifyFrom, Outcome.work_andThen_assoc]
      simp only [List.append_nil, List.reverse_reverse]
      apply Outcome.work_andThen_congr rfl
      intro interior stats
      rw [Outcome.work_after, ihLater, Outcome.work_map_andThen]
      apply Outcome.work_andThen_congr rfl
      intro flatLater stats
      simp only [List.length_cons, List.length_append, List.reverse_append, List.append_assoc,
        Nat.add_assoc, Nat.add_comm 1]

theorem work_simplify_tokens (forest : Forest) (stats : Stats) :
    (engine.simplify forest.tokens stats).work = (engine.simplifyForest forest stats).work := by
  have whole := engine.simplifyFrom_forest forest.tokens forest 0 [] [] [] stats
  rw [List.append_nil] at whole
  refine Eq.trans whole (Outcome.work_andThen_congr rfl ?_)
  intro flat stats
  rw [simplifyFrom, List.append_nil, List.reverse_reverse]

/-! ### Unbalanced tokens -/

theorem unmatched_of_simplifyFrom (input : List Token) (position : Nat)
    (tokens collected : List Token) (groups : List OpenGroup) (stats : Stats)
    (result : List Token)
    (succeeded : (engine.simplifyFrom input position tokens collected groups stats).result =
      .ok result) :
    unmatched tokens = ⟨groups.length, 0⟩ := by
  induction tokens generalizing position collected groups stats with
  | nil =>
      cases groups with
      | nil => rfl
      | cons group groups => cases succeeded
  | cons token rest ih =>
      rcases token.opening_or_closing_or_plain with rfl | rfl | plain
      · have later := ih _ _ _ _ succeeded
        exact (closes_opening groups.length rest).mpr later
      · cases groups with
        | nil => cases succeeded
        | cons group groups =>
            obtain ⟨interior, _, later, _⟩ := Outcome.andThen_eq_ok _ _ _ succeeded
            exact (closes_closing groups.length rest).mpr (ih _ _ _ _ later)
      · rw [engine.simplifyFrom_plain _ _ _ _ _ _ _ plain] at succeeded
        rw [unmatched_plain plain]
        exact ih _ _ _ _ succeeded

theorem balanced_of_simplify (tokens : List Token) (stats : Stats) (result : List Token)
    (succeeded : (engine.simplify tokens stats).result = .ok result) : Balanced tokens :=
  engine.unmatched_of_simplifyFrom tokens 0 tokens [] [] stats result succeeded

/-! ### Successful runs -/

/-- How the groups of a forest are simplified when every fixed point is reached. -/
inductive Flattens (engine : Engine) : Forest → Stats → List Token → Stats → Prop where
  | empty (stats : Stats) : Flattens engine .empty stats [] stats
  | single {token : Token} {plain : token.isParenthesis = false} {rest : Forest}
      {first last : Stats} {flat : List Token} (later : Flattens engine rest first flat last) :
      Flattens engine (.single token plain rest) first (token :: flat) last
  | group {inner rest : Forest} {first between last : Stats}
      {flat interior flatRest : List Token} (inside : Flattens engine inner first flat between)
      (reached : (engine.fixedPoint flat between).result = .ok interior)
      (later : Flattens engine rest (engine.fixedPoint flat between).stats.countGroup flatRest
        last) :
      Flattens engine (.group inner rest) first (asOperand interior ++ flatRest) last

theorem flattens_of_flatten (forest : Forest) (stats : Stats) (flat : List Token)
    (succeeded : (engine.flatten forest stats).result = .ok flat) :
    Flattens engine forest stats flat (engine.flatten forest stats).stats := by
  induction forest generalizing stats flat with
  | empty =>
      cases succeeded
      exact .empty stats
  | single token plain rest ih =>
      obtain ⟨flatRest, restSucceeded, rfl⟩ := Outcome.map_eq_ok _ _ _ succeeded
      exact .single (ih stats flatRest restSucceeded)
  | group inner rest ihInner ihRest =>
      obtain ⟨flatInner, innerSucceeded, fixedSucceeded, sameStats⟩ :=
        Outcome.andThen_eq_ok _ _ _ succeeded
      obtain ⟨interior, reached, restSucceeded, sameFixed⟩ :=
        Outcome.andThen_eq_ok _ _ _ fixedSucceeded
      obtain ⟨flatRest, flatSucceeded, rfl⟩ := Outcome.map_eq_ok _ _ _ restSucceeded
      rw [flatten, sameStats, sameFixed]
      exact .group (ihInner stats flatInner innerSucceeded) reached (ihRest _ _ flatSucceeded)

theorem flatten_of_flattens {forest : Forest} {first last : Stats} {flat : List Token}
    (flattened : Flattens engine forest first flat last) :
    (engine.flatten forest first).result = .ok flat ∧
      (engine.flatten forest first).stats = last := by
  induction flattened with
  | empty stats => exact ⟨rfl, rfl⟩
  | single later ih =>
      refine ⟨?_, ih.2⟩
      rw [flatten, Outcome.map, ih.1]
      rfl
  | @group inner rest first between last flat interior flatRest inside reached later ihInside
      ihLater =>
      have around := Outcome.andThen_of_ok (engine.flatten inner first)
        (fun flat stats => (engine.fixedPoint flat stats).andThen fun interior stats =>
          (engine.flatten rest stats.countGroup).map (asOperand interior ++ ·)) flat ihInside.1
      rw [ihInside.2] at around
      have behind := Outcome.andThen_of_ok (engine.fixedPoint flat between)
        (fun interior stats =>
          (engine.flatten rest stats.countGroup).map (asOperand interior ++ ·)) interior reached
      have work := around.trans behind
      refine ⟨?_, (Outcome.stats_of_work work).trans ihLater.2⟩
      rw [flatten, Outcome.result_of_work work, Outcome.map, ihLater.1]
      rfl

theorem simplify_of_flattens {forest : Forest} {first between : Stats} {flat result : List Token}
    (flattened : Flattens engine forest first flat between)
    (reached : (engine.fixedPoint flat between).result = .ok result) :
    (engine.simplify forest.tokens first).result = .ok result ∧
      (engine.simplify forest.tokens first).stats = (engine.fixedPoint flat between).stats := by
  obtain ⟨flattenedTo, sameStats⟩ := engine.flatten_of_flattens flattened
  have work := (engine.work_simplify_tokens forest first).trans
    (Outcome.andThen_of_ok (engine.flatten forest first) engine.fixedPoint flat flattenedTo)
  rw [sameStats] at work
  exact ⟨(Outcome.result_of_work work).trans reached, Outcome.stats_of_work work⟩

/-- A successful run flattens the forest that the tokens write and brings the
outcome to a fixed point. -/
theorem flattens_of_simplify (tokens : List Token) (stats : Stats) (result : List Token)
    (succeeded : (engine.simplify tokens stats).result = .ok result) :
    ∃ forest flat between, forest.tokens = tokens ∧ Flattens engine forest stats flat between ∧
      (engine.fixedPoint flat between).result = .ok result ∧
      (engine.simplify tokens stats).stats = (engine.fixedPoint flat between).stats := by
  obtain ⟨forest, rfl⟩ := (engine.balanced_of_simplify tokens stats result succeeded).exists_forest
  have sameWork := engine.work_simplify_tokens forest stats
  rw [Outcome.result_of_work sameWork] at succeeded
  obtain ⟨flat, flattened, reached, sameStats⟩ := Outcome.andThen_eq_ok _ _ _ succeeded
  refine ⟨forest, flat, _, rfl, engine.flattens_of_flatten forest stats flat flattened, reached, ?_⟩
  exact (Outcome.stats_of_work sameWork).trans sameStats

end Engine

/-! ### Relations that runs keep -/

/-- A relation between lists that holds of runs as soon as it holds of replacements:
lists may stand behind others, and a group may be put back as one operand. -/
structure Lifts (Related : List Token → List Token → Prop) : Prop where
  refl (tokens : List Token) : Related tokens tokens
  trans {first second third : List Token} (earlier : Related first second)
    (later : Related second third) : Related first third
  append {first second third fourth : List Token} (left : Related first second)
    (right : Related third fourth) : Related (first ++ third) (second ++ fourth)
  asOperand (tokens : List Token) :
    Related (.opening :: tokens ++ [.closing]) (asOperand tokens)

namespace Lifts

variable {Related : List Token → List Token → Prop} (lifts : Lifts Related)

include lifts

theorem rewrites {rules : List Rule} (replaces : ∀ rule ∈ rules, ∀ first second,
    rule.Replaces first second → Related first second) {count : Nat} {first last : List Token}
    (rewritten : Rewrites rules count first last) : Related first last := by
  induction rewritten with
  | refl tokens => exact lifts.refl tokens
  | step member replaced _ ih => exact lifts.trans (replaces _ member _ _ replaced) ih

variable {engine : Engine} (replaces : ∀ rule ∈ engine.rules, ∀ first second,
  rule.Replaces first second → Related first second)

include replaces

theorem fixedPoint (tokens reached : List Token) (stats : Stats)
    (succeeded : (engine.fixedPoint tokens stats).result = .ok reached) :
    Related tokens reached := by
  obtain ⟨count, _, rewritten⟩ :=
    (engine.fixedPoint_settles tokens reached stats succeeded).rewrites
  exact lifts.rewrites replaces rewritten

theorem flattens {forest : Forest} {first last : Stats} {flat : List Token}
    (flattened : engine.Flattens forest first flat last) : Related forest.tokens flat := by
  induction flattened with
  | empty stats => exact lifts.refl []
  | @single token plain rest first last flat later ih => exact lifts.append (lifts.refl [token]) ih
  | @group inner rest first between last flat interior flatRest inside reached later ihInside
      ihLater =>
      have settled := lifts.trans ihInside (lifts.fixedPoint replaces flat interior between reached)
      have enclosed : Related (.opening :: inner.tokens ++ [.closing])
          (.opening :: interior ++ [.closing]) :=
        lifts.append (lifts.append (lifts.refl [.opening]) settled) (lifts.refl [.closing])
      have whole := lifts.append (lifts.trans enclosed (lifts.asOperand interior)) ihLater
      rwa [List.append_assoc] at whole

theorem simplify (tokens result : List Token) (stats : Stats)
    (succeeded : (engine.simplify tokens stats).result = .ok result) : Related tokens result := by
  obtain ⟨forest, flat, between, rfl, flattened, reached, _⟩ :=
    engine.flattens_of_simplify tokens stats result succeeded
  exact lifts.trans (lifts.flattens replaces flattened)
    (lifts.fixedPoint replaces flat result between reached)

end Lifts

end BoolSimplify
