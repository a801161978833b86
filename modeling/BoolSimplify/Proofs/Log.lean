/-
What the log tells.

Events are written where the work is done, and the counters are kept apart from them.
The main statement says that the two agree, whether a run succeeds or fails: passes are
numbered without a gap, every replacement and every group is told once, and an
exhausted budget is told last.  The groups are told by their places in the input, each
with the result that it has on its own.  All of this is read from the messages and the
fields of the events, as whoever reads the log does.
-/

import BoolSimplify.Proofs.Composition
import BoolSimplify.Proofs.Groups
import Mathlib.Algebra.GroupWithZero.Nat

namespace BoolSimplify

/-! ### What an event tells -/

/-- A group that was simplified, by the positions of its parentheses. -/
structure ClosedGroup where
  first : Nat
  last : Nat
  result : List Token
  deriving DecidableEq, Repr

def ClosedGroup.place (group : ClosedGroup) : Nat × Nat :=
  (group.first, group.last)

namespace Event

def pass? : Event → Option Nat
  | passEnded pass _ => some pass
  | _ => none

def fired? : Event → Option Nat
  | ruleFired _ fired => some fired
  | _ => none

def closedGroup? : Event → Option ClosedGroup
  | groupSimplified first last result => some ⟨first, last, result⟩
  | _ => none

/-! ### Messages and fields -/

def withMessage (message : String) (events : List Event) : List Event :=
  events.filter fun event => event.message == message

def tellsExhaustion (event : Event) : Bool :=
  event.message == "pass budget exhausted"

/-- The number in the field with this name. -/
def numberField? (event : Event) (name : String) : Option Nat :=
  match event.fields.lookup name with
  | some (.number value) => some value
  | _ => none

/-- The text in the field with this name. -/
def textField? (event : Event) (name : String) : Option String :=
  match event.fields.lookup name with
  | some (.text value) => some value
  | _ => none

/-- The positions in the fields `start` and `end`. -/
def place? (event : Event) : Option (Nat × Nat) :=
  match event.numberField? "start", event.numberField? "end" with
  | some first, some last => some (first, last)
  | _, _ => none

/-- What is read from the events with one message, when each of them shows its content
and no other event has such a content. -/
theorem map_withMessage {Content Shown : Type} (message : String) (read : Event → Shown)
    (content? : Event → Option Content) (shown : Content → Shown)
    (shows : ∀ event : Event,
      (Option.guard (fun event => event.message == message) event).map read =
        (content? event).map shown) (events : List Event) :
    (withMessage message events).map read = (events.filterMap content?).map shown := by
  rw [withMessage, ← List.filterMap_eq_filter, List.map_filterMap, List.map_filterMap]
  exact List.filterMap_congr fun event _ => shows event

theorem map_passes (events : List Event) :
    (withMessage "catalog pass" events).map (·.numberField? "pass") =
      (events.filterMap pass?).map some := by
  apply map_withMessage
  intro event
  cases event <;> rfl

theorem map_firings (events : List Event) :
    (withMessage "rule fired" events).map (·.numberField? "fired") =
      (events.filterMap fired?).map some := by
  apply map_withMessage
  intro event
  cases event <;> rfl

theorem map_places (events : List Event) :
    (withMessage "simplified group" events).map place? =
      ((events.filterMap closedGroup?).map ClosedGroup.place).map some := by
  rw [List.map_map]
  apply map_withMessage
  intro event
  cases event <;> rfl

theorem exists_closedGroup {closing : Event} {events : List Event}
    (member : closing ∈ withMessage "simplified group" events) :
    ∃ closed ∈ events.filterMap closedGroup?, closing.place? = some closed.place ∧
      closing.textField? "result" = some (render closed.result) := by
  obtain ⟨inEvents, isClosing⟩ := List.mem_filter.mp member
  cases closing with
  | groupSimplified first last result =>
      exact ⟨⟨first, last, result⟩, List.mem_filterMap.mpr ⟨_, inEvents, rfl⟩, rfl, rfl⟩
  | _ => exact absurd isClosing Bool.false_ne_true

theorem withMessage_exhausted_eq_nil {events : List Event}
    (silent : ∀ event ∈ events, event.tellsExhaustion = false) :
    withMessage "pass budget exhausted" events = [] := by
  rw [withMessage, List.filter_eq_nil_iff]
  intro event member
  exact Bool.eq_false_iff.mp (silent event member)

theorem withMessage_exhausted {earlier : List Event}
    (silent : ∀ event ∈ earlier, event.tellsExhaustion = false) (passes : Nat)
    (left : List Token) :
    withMessage "pass budget exhausted" (earlier ++ [.budgetExhausted passes left]) =
      [.budgetExhausted passes left] := by
  have none := withMessage_exhausted_eq_nil silent
  unfold withMessage at none ⊢
  rw [List.filter_append, none]
  rfl

end Event

open Event (withMessage)

/-! ### Events and counters -/

/-- What the counters gain is what the events tell.  Passes are numbered on from those
before. -/
structure Accounted (events : List Event) (before after : Stats) : Prop where
  passes : ∃ count, after.passes = before.passes + count ∧
    events.filterMap Event.pass? = List.range' (before.passes + 1) count
  replacements : after.replacements = before.replacements + (events.filterMap Event.fired?).sum
  groups : after.groups = before.groups + (events.filterMap Event.closedGroup?).length

namespace Accounted

theorem nothing (stats : Stats) : Accounted [] stats stats :=
  ⟨⟨0, rfl, rfl⟩, rfl, rfl⟩

theorem trans {earlier later : List Event} {first second third : Stats}
    (start : Accounted earlier first second) (onward : Accounted later second third) :
    Accounted (earlier ++ later) first third := by
  obtain ⟨firstCount, firstPasses, firstNumbers⟩ := start.passes
  obtain ⟨secondCount, secondPasses, secondNumbers⟩ := onward.passes
  have replacements := onward.replacements
  have groups := onward.groups
  rw [start.replacements] at replacements
  rw [start.groups] at groups
  refine ⟨⟨firstCount + secondCount, by omega, ?_⟩, ?_, ?_⟩
  · rw [List.filterMap_append, firstNumbers, secondNumbers, firstPasses, Nat.add_right_comm,
      List.range'_append_1]
  · rw [List.filterMap_append, List.sum_append, replacements, Nat.add_assoc]
  · rw [List.filterMap_append, List.length_append, groups, Nat.add_assoc]

theorem andThen {First Second : Type} {outcome : Outcome First}
    {next : First → Stats → Outcome Second} {before : Stats}
    (start : Accounted outcome.events before outcome.stats)
    (onward : ∀ value stats, Accounted (next value stats).events stats (next value stats).stats) :
    Accounted (outcome.andThen next).events before (outcome.andThen next).stats := by
  unfold Outcome.andThen
  cases outcome.result with
  | ok value => exact start.trans (onward value outcome.stats)
  | error failure => exact start

theorem group (first last : Nat) (result : List Token) (stats : Stats) :
    Accounted [.groupSimplified first last result] stats stats.countGroup :=
  ⟨⟨0, rfl, rfl⟩, rfl, rfl⟩

theorem exhausted (passes : Nat) (left : List Token) (stats : Stats) :
    Accounted [.budgetExhausted passes left] stats stats :=
  ⟨⟨0, rfl, rfl⟩, rfl, rfl⟩

end Accounted

theorem Pass.accounted (pass : Pass) (stats : Stats) :
    Accounted (pass.events (stats.countPass pass.replacements).passes) stats
      (stats.countPass pass.replacements) := by
  have fired (firings : List (Family × Nat)) :
      Accounted (firings.map fun firing => .ruleFired firing.1 firing.2) stats
        { stats with replacements :=
            stats.replacements + firings.foldr (fun firing total => firing.2 + total) 0 } := by
    induction firings with
    | nil => exact .nothing stats
    | cons firing firings ih =>
        refine ⟨ih.passes, ?_, ih.groups⟩
        exact congrArg (fun total => stats.replacements + (firing.2 + total))
          (Nat.add_left_cancel ih.replacements)
  exact (fired pass.firings).trans ⟨⟨1, rfl, rfl⟩, rfl, rfl⟩

theorem runPasses_accounted (rules : List Rule) (budget : Nat) (tokens : List Token)
    (stats : Stats) :
    Accounted (runPasses rules budget tokens stats).events stats
      (runPasses rules budget tokens stats).stats := by
  induction budget generalizing tokens stats with
  | zero => exact .exhausted stats.passes tokens stats
  | succ budget ih =>
      have counted := (runPass rules tokens).accounted stats
      by_cases same : (runPass rules tokens).tokens = tokens
      · simp only [runPasses, if_pos same]
        exact counted
      · simp only [runPasses, if_neg same]
        exact counted.trans (ih _ _)

theorem Engine.simplifyFrom_accounted (engine : Engine) (input tokens collected : List Token)
    (position : Nat) (groups : List OpenGroup) (stats : Stats) :
    Accounted (engine.simplifyFrom input position tokens collected groups stats).events stats
      (engine.simplifyFrom input position tokens collected groups stats).stats := by
  induction tokens generalizing collected position groups stats with
  | nil =>
      cases groups with
      | nil => exact runPasses_accounted engine.rules _ collected.reverse stats
      | cons group groups => exact .nothing stats
  | cons token rest ih =>
      rcases token.opening_or_closing_or_plain with rfl | rfl | plain
      · exact ih _ _ _ _
      · cases groups with
        | nil => exact .nothing stats
        | cons group groups =>
            apply Accounted.andThen (runPasses_accounted engine.rules _ collected.reverse stats)
            intro interior stats
            exact (Accounted.group _ _ _ _).trans (ih _ _ groups _)
      · rw [engine.simplifyFrom_plain _ _ _ _ _ _ _ plain]
        exact ih _ _ _ _

/-! ### The end of the budget -/

/-- An exhausted budget is told once and last when a step fails for it, and never when
it does not. -/
structure Outcome.TellsExhaustion {Result : Type} (outcome : Outcome Result) : Prop where
  last : ∀ passes left, outcome.result = .error (.nonConvergent passes left) →
    ∃ earlier, outcome.events = earlier ++ [.budgetExhausted passes left] ∧
      ∀ event ∈ earlier, event.tellsExhaustion = false
  never : (∀ passes left, outcome.result ≠ .error (.nonConvergent passes left)) →
    ∀ event ∈ outcome.events, event.tellsExhaustion = false

namespace Outcome.TellsExhaustion

variable {First Second : Type} {outcome : Outcome First}

theorem after (tells : outcome.TellsExhaustion) {earlier : List Event}
    (silent : ∀ event ∈ earlier, event.tellsExhaustion = false) :
    (outcome.after earlier).TellsExhaustion := by
  constructor
  · intro passes left failed
    obtain ⟨between, eventsEq, betweenSilent⟩ := tells.last passes left failed
    refine ⟨earlier ++ between, ?_, List.forall_mem_append.mpr ⟨silent, betweenSilent⟩⟩
    rw [Outcome.after, eventsEq, List.append_assoc]
  · exact fun other => List.forall_mem_append.mpr ⟨silent, tells.never other⟩

theorem andThen {next : First → Stats → Outcome Second} (tells : outcome.TellsExhaustion)
    (later : ∀ value stats, (next value stats).TellsExhaustion) :
    (outcome.andThen next).TellsExhaustion := by
  unfold Outcome.andThen
  cases ended : outcome.result with
  | ok value =>
      apply (later value outcome.stats).after
      apply tells.never
      intro passes left failed
      cases ended.symm.trans failed
  | error failure =>
      constructor
      · intro passes left failed
        cases failed
        exact tells.last passes left ended
      · intro other
        apply tells.never
        intro passes left failed
        cases ended.symm.trans failed
        exact other passes left rfl

theorem unbalanced (position : Nat) (input : List Token) (stats : Stats) :
    (⟨.error (.unbalanced position input), stats, []⟩ : Outcome First).TellsExhaustion := by
  constructor
  · intro passes left failed
    cases failed
  · exact fun other => List.forall_mem_nil _

end Outcome.TellsExhaustion

theorem Pass.events_silent (pass : Pass) (number : Nat) :
    ∀ event ∈ pass.events number, event.tellsExhaustion = false := by
  intro event member
  rcases List.mem_append.mp member with isFiring | isEnd
  · obtain ⟨firing, _, rfl⟩ := List.mem_map.mp isFiring
    rfl
  · cases List.mem_singleton.mp isEnd
    rfl

theorem runPasses_tellsExhaustion (rules : List Rule) (budget : Nat) (tokens : List Token)
    (stats : Stats) : (runPasses rules budget tokens stats).TellsExhaustion := by
  induction budget generalizing tokens stats with
  | zero =>
      constructor
      · intro passes left failed
        cases failed
        exact ⟨[], rfl, List.forall_mem_nil _⟩
      · exact fun other => absurd rfl (other stats.passes tokens)
  | succ budget ih =>
      have silent := (runPass rules tokens).events_silent
        (stats.countPass (runPass rules tokens).replacements).passes
      by_cases same : (runPass rules tokens).tokens = tokens
      · simp only [runPasses, if_pos same]
        constructor
        · intro passes left failed
          cases failed
        · exact fun other => silent
      · simp only [runPasses, if_neg same]
        exact (ih _ _).after silent

theorem Engine.simplifyFrom_tellsExhaustion (engine : Engine) (input tokens collected : List Token)
    (position : Nat) (groups : List OpenGroup) (stats : Stats) :
    (engine.simplifyFrom input position tokens collected groups stats).TellsExhaustion := by
  induction tokens generalizing collected position groups stats with
  | nil =>
      cases groups with
      | nil => exact runPasses_tellsExhaustion engine.rules _ collected.reverse stats
      | cons group groups => exact .unbalanced group.position input stats
  | cons token rest ih =>
      rcases token.opening_or_closing_or_plain with rfl | rfl | plain
      · exact ih _ _ _ _
      · cases groups with
        | nil => exact .unbalanced position input stats
        | cons group groups =>
            apply Outcome.TellsExhaustion.andThen
              (runPasses_tellsExhaustion engine.rules _ collected.reverse stats)
            intro interior stats
            apply (ih _ _ groups _).after
            intro event member
            cases List.mem_singleton.mp member
            rfl
      · rw [engine.simplifyFrom_plain _ _ _ _ _ _ _ plain]
        exact ih _ _ _ _

/-! ### Kinds of events -/

theorem runPasses_events (Kept : Event → Prop)
    (fired : ∀ family count, Kept (.ruleFired family count))
    (ended : ∀ pass tokens, Kept (.passEnded pass tokens))
    (exhausted : ∀ passes tokens, Kept (.budgetExhausted passes tokens)) (rules : List Rule)
    (budget : Nat) (tokens : List Token) (stats : Stats) :
    ∀ event ∈ (runPasses rules budget tokens stats).events, Kept event := by
  induction budget generalizing tokens stats with
  | zero =>
      intro event member
      cases List.mem_singleton.mp member
      exact exhausted stats.passes tokens
  | succ budget ih =>
      have here (number : Nat) : ∀ event ∈ (runPass rules tokens).events number, Kept event := by
        intro event member
        rcases List.mem_append.mp member with isFiring | isEnd
        · obtain ⟨firing, _, rfl⟩ := List.mem_map.mp isFiring
          exact fired firing.1 firing.2
        · cases List.mem_singleton.mp isEnd
          exact ended number _
      by_cases same : (runPass rules tokens).tokens = tokens
      · simp only [runPasses, if_pos same]
        exact here _
      · simp only [runPasses, if_neg same]
        exact List.forall_mem_append.mpr ⟨here _, ih _ _⟩

theorem Engine.simplifyFrom_events (engine : Engine) (Kept : Event → Prop)
    (fired : ∀ family count, Kept (.ruleFired family count))
    (ended : ∀ pass tokens, Kept (.passEnded pass tokens))
    (exhausted : ∀ passes tokens, Kept (.budgetExhausted passes tokens))
    (grouped : ∀ first last tokens, Kept (.groupSimplified first last tokens))
    (input tokens collected : List Token) (position : Nat) (groups : List OpenGroup)
    (stats : Stats) :
    ∀ event ∈ (engine.simplifyFrom input position tokens collected groups stats).events,
      Kept event := by
  induction tokens generalizing collected position groups stats with
  | nil =>
      cases groups with
      | nil => exact runPasses_events Kept fired ended exhausted _ _ _ _
      | cons group groups => exact fun event member => absurd member List.not_mem_nil
  | cons token rest ih =>
      rcases token.opening_or_closing_or_plain with rfl | rfl | plain
      · exact ih _ _ _ _
      · cases groups with
        | nil => exact fun event member => absurd member List.not_mem_nil
        | cons group groups =>
            have inside := runPasses_events Kept fired ended exhausted engine.rules
              (engine.maxPasses - stats.passes) collected.reverse stats
            change ∀ event ∈ (engine.fixedPoint collected.reverse stats).events, Kept event
              at inside
            rw [simplifyFrom, Outcome.andThen]
            split
            · rw [Outcome.after, List.forall_mem_append]
              refine ⟨inside, ?_⟩
              rw [Outcome.after, List.forall_mem_append, List.forall_mem_singleton]
              exact ⟨grouped _ _ _, ih _ _ _ _⟩
            · exact inside
      · rw [engine.simplifyFrom_plain _ _ _ _ _ _ _ plain]
        exact ih _ _ _ _

/-! ### Places of groups -/

namespace Outcome

variable {First Second : Type}

/-- The groups that a step tells of, in the order in which it closed them. -/
def closedGroups (outcome : Outcome First) : List ClosedGroup :=
  outcome.events.filterMap Event.closedGroup?

theorem closedGroups_andThen (outcome : Outcome First) (next : First → Stats → Outcome Second)
    (silent : outcome.closedGroups = []) :
    (outcome.andThen next).closedGroups =
      match outcome.result with
      | .ok value => (next value outcome.stats).closedGroups
      | .error _ => [] := by
  unfold andThen
  cases outcome.result with
  | ok value => exact List.filterMap_append.trans (congrArg (· ++ _) silent)
  | error failure => exact silent

/-- The groups that a step tells of are the first of those at `places`, and all of them
if it succeeds. -/
def TellsPlaces (outcome : Outcome First) (places : List (Nat × Nat)) : Prop :=
  outcome.closedGroups.map ClosedGroup.place <+: places ∧
    ∀ result, outcome.result = .ok result → outcome.closedGroups.map ClosedGroup.place = places

theorem TellsPlaces.group {outcome : Outcome First} {places : List (Nat × Nat)}
    (tells : outcome.TellsPlaces places) (first last : Nat) (interior : List Token) :
    (outcome.after [.groupSimplified first last interior]).TellsPlaces ((first, last) :: places) :=
  ⟨List.prefix_cons_inj (first, last) |>.mpr tells.1,
    fun result succeeded => congrArg (List.cons _) (tells.2 result succeeded)⟩

theorem TellsPlaces.andThen {outcome : Outcome First} {next : First → Stats → Outcome Second}
    {places : List (Nat × Nat)} (silent : outcome.closedGroups = [])
    (tells : ∀ value stats, (next value stats).TellsPlaces places) :
    (outcome.andThen next).TellsPlaces places := by
  have told := outcome.closedGroups_andThen next silent
  unfold TellsPlaces
  rw [told]
  unfold Outcome.andThen
  cases outcome.result with
  | ok value => exact tells value outcome.stats
  | error failure =>
      refine ⟨List.nil_prefix, ?_⟩
      intro result succeeded
      cases succeeded

end Outcome

theorem Engine.fixedPoint_closedGroups (engine : Engine) (tokens : List Token) (stats : Stats) :
    (engine.fixedPoint tokens stats).closedGroups = [] := by
  apply List.filterMap_eq_nil_iff.mpr
  apply runPasses_events
  · exact fun family count => rfl
  · exact fun pass tokens => rfl
  · exact fun passes tokens => rfl

theorem Engine.simplifyFrom_tellsPlaces (engine : Engine) (input tokens collected : List Token)
    (position : Nat) (groups : List OpenGroup) (stats : Stats) :
    (engine.simplifyFrom input position tokens collected groups stats).TellsPlaces
      (groupsFrom position (groups.map OpenGroup.position) tokens) := by
  induction tokens generalizing collected position groups stats with
  | nil =>
      cases groups with
      | nil =>
          have none := congrArg (List.map ClosedGroup.place)
            (engine.fixedPoint_closedGroups collected.reverse stats)
          exact ⟨none ▸ List.nil_prefix, fun _ _ => none⟩
      | cons group groups =>
          refine ⟨List.nil_prefix, ?_⟩
          intro result succeeded
          cases succeeded
  | cons token rest ih =>
      rcases token.opening_or_closing_or_plain with rfl | rfl | plain
      · exact ih _ _ _ _
      · cases groups with
        | nil =>
            refine ⟨List.nil_prefix, ?_⟩
            intro result succeeded
            cases succeeded
        | cons group groups =>
            apply Outcome.TellsPlaces.andThen (engine.fixedPoint_closedGroups _ stats)
            exact fun interior stats => (ih _ _ groups _).group group.position position interior
      · rw [engine.simplifyFrom_plain _ _ _ _ _ _ _ plain, groupsFrom_plain plain]
        exact ih _ _ _ _

/-! ### Results of groups -/

def Forest.append : (first second : Forest) → Forest
  | empty, second => second
  | single token plain rest, second => single token plain (rest.append second)
  | group inner rest, second => group inner (rest.append second)

theorem Forest.tokens_append (first second : Forest) :
    (first.append second).tokens = first.tokens ++ second.tokens := by
  induction first with
  | empty => rfl
  | single token plain rest ih => exact congrArg (List.cons token) ih
  | group inner rest ihInner ihRest =>
      simp only [append, tokens, ihRest, List.cons_append, List.append_assoc]

namespace Engine

variable {engine : Engine}

theorem Flattens.append {first second : Forest} {before between after : Stats}
    {flat flatSecond : List Token} (earlier : engine.Flattens first before flat between)
    (later : engine.Flattens second between flatSecond after) :
    engine.Flattens (first.append second) before (flat ++ flatSecond) after := by
  induction earlier with
  | empty stats => exact later
  | single _ ih => exact .single (ih later)
  | group inside reached _ _ ih =>
      rw [List.append_assoc]
      exact .group inside reached (ih later)

theorem Flattens.simplify_alone {inner : Forest} {before between : Stats}
    {flat interior : List Token} (inside : engine.Flattens inner before flat between)
    (reached : (engine.fixedPoint flat between).result = .ok interior) :
    (engine.simplify inner.tokens .zero).result = .ok interior := by
  have noPasses := Stats.zero_passes
  obtain ⟨ended, insideAlone, paid⟩ := inside.earlier .zero (Nat.zero_le _)
  have repeats := fixedPoint_earlier flat interior between ended (by omega) reached
  exact (engine.simplify_of_flattens insideAlone (repeats.1.trans reached)).1

/-- What each level has collected of the tokens `before`: the forest that was read on the
level, flattened. -/
inductive Collected (engine : Engine) :
    (before collected : List Token) → (groups : List OpenGroup) → Stats → Prop where
  | outside {forest : Forest} {first last : Stats} {flat : List Token}
      (flattened : engine.Flattens forest first flat last) :
      Collected engine forest.tokens flat.reverse [] last
  | inside {before around flat : List Token} {groups : List OpenGroup} {between last : Stats}
      {forest : Forest} (outer : Collected engine before around groups between)
      (flattened : engine.Flattens forest between flat last) :
      Collected engine (before ++ .opening :: forest.tokens) flat.reverse
        (⟨before.length, around⟩ :: groups) last

namespace Collected

variable {before collected : List Token} {groups : List OpenGroup} {stats : Stats}

theorem append (levels : Collected engine before collected groups stats) {forest : Forest}
    {flat : List Token} {last : Stats} (flattened : engine.Flattens forest stats flat last) :
    Collected engine (before ++ forest.tokens) (flat.reverse ++ collected) groups last := by
  cases levels with
  | outside earlier =>
      rw [← Forest.tokens_append, ← List.reverse_append]
      exact .outside (earlier.append flattened)
  | inside outer earlier =>
      rw [List.append_assoc, List.cons_append, ← Forest.tokens_append, ← List.reverse_append]
      exact .inside outer (earlier.append flattened)

theorem token (levels : Collected engine before collected groups stats) {token : Token}
    (plain : token.isParenthesis = false) :
    Collected engine (before ++ [token]) (token :: collected) groups stats := by
  have single : engine.Flattens (.single token plain .empty) stats [token] stats :=
    .single (.empty stats)
  exact levels.append single

/-- When the innermost group is simplified, its result is the one it has alone, and the
level around it goes on with what is put back. -/
theorem close {group : OpenGroup}
    (levels : Collected engine before collected (group :: groups) stats) {interior : List Token}
    (reached : (engine.fixedPoint collected.reverse stats).result = .ok interior) :
    (∃ outer inner, before = outer ++ .opening :: inner ∧ outer.length = group.position ∧
      (engine.simplify inner .zero).result = .ok interior) ∧
    Collected engine (before ++ [.closing]) ((asOperand interior).reverse ++ group.around) groups
      (engine.fixedPoint collected.reverse stats).stats.countGroup := by
  cases levels with
  | @inside outer around flat _ between _ forest outerLevels flattened =>
      rw [List.reverse_reverse] at reached ⊢
      have closed : engine.Flattens (.group forest .empty) between (asOperand interior)
          (engine.fixedPoint flat stats).stats.countGroup := by
        have grouped := Flattens.group flattened reached (.empty _)
        rwa [List.append_nil] at grouped
      refine ⟨⟨outer, forest.tokens, rfl, rfl, flattened.simplify_alone reached⟩, ?_⟩
      have onward := outerLevels.append closed
      rwa [List.append_assoc]

end Collected

theorem simplifyFrom_alone (input before tokens collected : List Token) (groups : List OpenGroup)
    (stats : Stats) (split : input = before ++ tokens)
    (levels : Collected engine before collected groups stats) :
    ∀ closed ∈ (engine.simplifyFrom input before.length tokens collected groups stats).closedGroups,
      (engine.simplify (between input closed.first closed.last) .zero).result =
        .ok closed.result := by
  induction tokens generalizing before collected groups stats with
  | nil =>
      cases groups with
      | nil =>
          intro closed member
          rw [simplifyFrom, fixedPoint_closedGroups] at member
          cases member
      | cons group groups => exact List.forall_mem_nil _
  | cons token rest ih =>
      have onward : input = before ++ [token] ++ rest := by
        rw [split, List.append_assoc, List.singleton_append]
      have oneFurther : before.length + 1 = (before ++ [token]).length := by
        rw [List.length_append, List.length_singleton]
      rcases token.opening_or_closing_or_plain with rfl | rfl | plain
      · rw [simplifyFrom, oneFurther]
        exact ih _ _ _ _ onward (.inside levels (.empty stats))
      · cases groups with
        | nil => exact List.forall_mem_nil _
        | cons group groups =>
            intro closed member
            rw [simplifyFrom, Outcome.closedGroups_andThen _ _ (fixedPoint_closedGroups _ _ _),
              oneFurther] at member
            cases reached : (engine.fixedPoint collected.reverse stats).result with
            | error failure =>
                rw [reached] at member
                cases member
            | ok interior =>
                rw [reached] at member
                obtain ⟨⟨outer, inner, rfl, atPosition, alone⟩, around⟩ :=
                  levels.close reached
                rcases List.mem_cons.mp member with rfl | later
                · have atEnd : (outer ++ .opening :: inner).length =
                      outer.length + 1 + inner.length := by
                    rw [List.length_append, List.length_cons]
                    omega
                  rw [split, ← atPosition, atEnd, List.append_assoc, List.cons_append,
                    between_group]
                  exact alone
                · exact ih _ _ groups _ onward around closed later
      · rw [engine.simplifyFrom_plain _ _ _ _ _ _ _ plain, oneFurther]
        exact ih _ _ _ _ onward (levels.token plain)

/-- The log of a run accounts for its counters, whether it succeeds or fails.  Passes are
numbered from one on, the firings sum up to the replacements, and an exhausted budget is told
once and last.  The groups that it tells of are the first of those in the tokens, in the order
of their ends, each with the result that it has alone, and they are all of them if the run
succeeds. -/
theorem simplify_log (engine : Engine) (tokens : List Token) :
    let outcome := engine.simplify tokens .zero
    let passes := withMessage "catalog pass" outcome.events
    let firings := withMessage "rule fired" outcome.events
    let closings := withMessage "simplified group" outcome.events
    let exhaustions := withMessage "pass budget exhausted" outcome.events
    passes.map (·.numberField? "pass") = (List.range' 1 outcome.stats.passes).map some ∧
      (∃ fired : List Nat, firings.map (·.numberField? "fired") = fired.map some ∧
        fired.sum = outcome.stats.replacements) ∧
      closings.length = outcome.stats.groups ∧
      (∀ used left, outcome.result = .error (.nonConvergent used left) →
        ∃ earlier last, outcome.events = earlier ++ [last] ∧ exhaustions = [last] ∧
          last.numberField? "passes" = some used ∧
          last.textField? "expression" = some (render left)) ∧
      ((∀ used left, outcome.result ≠ .error (.nonConvergent used left)) →
        exhaustions = []) ∧
      (∀ first last, (first, last) ∈ groups tokens ↔ matchingClose tokens first = some last) ∧
      ((groups tokens).Pairwise fun earlier later => earlier.2 < later.2) ∧
      closings.map Event.place? <+: (groups tokens).map some ∧
      (∀ result, outcome.result = .ok result →
        closings.map Event.place? = (groups tokens).map some) ∧
      ∀ closing ∈ closings, ∃ first last result, closing.place? = some (first, last) ∧
        (engine.simplify (between tokens first last) .zero).result = .ok result ∧
        closing.textField? "result" = some (render result) := by
  intro outcome passes firings closings exhaustions
  have accounted : Accounted outcome.events .zero outcome.stats :=
    engine.simplifyFrom_accounted tokens tokens [] 0 [] .zero
  have exhaustion : outcome.TellsExhaustion :=
    engine.simplifyFrom_tellsExhaustion tokens tokens [] 0 [] .zero
  have told : outcome.TellsPlaces (groups tokens) :=
    engine.simplifyFrom_tellsPlaces tokens tokens [] 0 [] .zero
  have alone := simplifyFrom_alone tokens [] tokens [] [] .zero rfl
    (.outside (.empty .zero) : Collected engine [] [] [] .zero)
  have places : closings.map Event.place? =
      (outcome.closedGroups.map ClosedGroup.place).map some := Event.map_places outcome.events
  refine ⟨?_, ⟨outcome.events.filterMap Event.fired?, Event.map_firings _, ?_⟩, ?_, ?_, ?_,
    mem_groups_iff tokens, groupsFrom_pairwise 0 [] tokens, ?_, ?_, ?_⟩
  · obtain ⟨count, numbers, numbered⟩ := accounted.passes
    rw [Event.map_passes, numbered, numbers, Stats.zero_passes, Nat.zero_add, Nat.zero_add]
  · exact (Nat.zero_add _).symm.trans accounted.replacements.symm
  · have sameLength := congrArg List.length places
    rw [List.length_map, List.length_map, List.length_map] at sameLength
    exact sameLength.trans ((Nat.zero_add _).symm.trans accounted.groups.symm)
  · intro used left failed
    obtain ⟨earlier, eventsEq, silent⟩ := exhaustion.last used left failed
    have once := Event.withMessage_exhausted silent used left
    rw [← eventsEq] at once
    exact ⟨earlier, _, eventsEq, once, rfl, rfl⟩
  · exact fun other => Event.withMessage_exhausted_eq_nil (exhaustion.never other)
  · rw [places]
    exact told.1.map some
  · intro result succeeded
    rw [places, told.2 result succeeded]
  · intro closing member
    obtain ⟨closed, isClosed, place, result⟩ := Event.exists_closedGroup member
    exact ⟨closed.first, closed.last, closed.result, place, alone closed isClosed, result⟩

/-- Six passes close all three groups.  With four, the log ends in the last of them. -/
theorem simplify_log_nested :
    let tokens := tokenize "~((A & A) | foo) & (~~C)"
    let ample := simplify ⟨catalog, 6⟩ tokens .zero
    let scant := simplify ⟨catalog, 4⟩ tokens .zero
    ample.result = .ok (tokenize "~(A | foo) & C") ∧
      (withMessage "simplified group" ample.events).map Event.place? =
        [some (2, 6), some (1, 9), some (11, 15)] ∧
      (withMessage "catalog pass" ample.events).map (·.numberField? "pass") =
        [some 1, some 2, some 3, some 4, some 5, some 6] ∧
      (∃ result, (simplify ⟨catalog, 6⟩ (between tokens 1 9) .zero).result = .ok result ∧
        render result = "A | foo") ∧
      scant.result = .error (.nonConvergent 4 (tokenize "C")) ∧
      ∃ earlier last, scant.events = earlier ++ [last] ∧
        withMessage "pass budget exhausted" scant.events = [last] ∧
        last.numberField? "passes" = some 4 := by
  intro tokens ample scant
  have succeeded : ample.result = .ok (tokenize "~(A | foo) & C") := by rfl
  have failed : scant.result = .error (.nonConvergent 4 (tokenize "C")) := by rfl
  have outer : .groupSimplified 1 9 (tokenize "A | foo") ∈
      withMessage "simplified group" ample.events := by
    decide +kernel
  obtain ⟨numbers, _, _, _, _, _, _, _, places, alone⟩ := simplify_log ⟨catalog, 6⟩ tokens
  obtain ⟨_, _, _, exhaustion, _⟩ := simplify_log ⟨catalog, 4⟩ tokens
  obtain ⟨first, last, result, place, reached, shown⟩ := alone _ outer
  cases place
  obtain ⟨earlier, final, eventsEq, once, used, _⟩ := exhaustion _ _ failed
  refine ⟨succeeded, (places _ succeeded).trans (by decide +kernel), ?_,
    ⟨result, reached, (Option.some.inj shown).symm.trans (by decide +kernel)⟩, failed,
    earlier, final, eventsEq, once, used⟩
  exact numbers.trans (by decide +kernel)

end Engine

end BoolSimplify
