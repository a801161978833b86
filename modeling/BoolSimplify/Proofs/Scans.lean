/-
The scans of a run.

Counters and log tell of scans that replace something, and by the family of their rule
only.  Here all scans of a run are listed, each by its rule and the tokens that it is
applied to.  The main statements say that the replacements of a run are those of its scans,
and that rules can be left out when no scan of theirs replaces anything.
-/

import BoolSimplify.Proofs.Nesting
import Mathlib.Algebra.GroupWithZero.Nat

namespace BoolSimplify

/-! ### Lists of scans -/

/-- A rule and the tokens that it scans. -/
structure Application where
  rule : Rule
  tokens : List Token
  deriving DecidableEq, Repr

def Application.fired (application : Application) : Nat :=
  (application.rule.apply application.tokens).fired

def passApplications : (rules : List Rule) → (tokens : List Token) → List Application
  | [], _ => []
  | rule :: rules, tokens => ⟨rule, tokens⟩ :: passApplications rules (rule.apply tokens).tokens

def passesApplications (rules : List Rule) :
    (budget : Nat) → (tokens : List Token) → List Application
  | 0, _ => []
  | budget + 1, tokens =>
      let reached := (runPass rules tokens).tokens
      passApplications rules tokens ++
        if reached = tokens then [] else passesApplications rules budget reached

namespace Engine

def levelApplications (engine : Engine) (tokens : List Token) (stats : Stats) : List Application :=
  passesApplications engine.rules (engine.maxPasses - stats.passes) tokens

/-- The scans of a run from some place on, when the levels around the current one have
collected `around`, the innermost first. -/
def applicationsFrom (engine : Engine) : (tokens : List Token) → (collected : List Token) →
    (around : List (List Token)) → Stats → List Application
  | [], collected, [], stats => engine.levelApplications collected.reverse stats
  | [], _, _ :: _, _ => []
  | .opening :: rest, collected, around, stats =>
      engine.applicationsFrom rest [] (collected :: around) stats
  | .closing :: _, _, [], _ => []
  | .closing :: rest, collected, outer :: around, stats =>
      engine.levelApplications collected.reverse stats ++
        match (engine.fixedPoint collected.reverse stats).result with
        | .ok interior =>
            engine.applicationsFrom rest ((asOperand interior).reverse ++ outer) around
              (engine.fixedPoint collected.reverse stats).stats.countGroup
        | .error _ => []
  | token :: rest, collected, around, stats =>
      engine.applicationsFrom rest (token :: collected) around stats

def applications (engine : Engine) (tokens : List Token) (stats : Stats) : List Application :=
  engine.applicationsFrom tokens [] [] stats

theorem applicationsFrom_plain (engine : Engine) (token : Token) (rest collected : List Token)
    (around : List (List Token)) (stats : Stats) (plain : token.isParenthesis = false) :
    engine.applicationsFrom (token :: rest) collected around stats =
      engine.applicationsFrom rest (token :: collected) around stats := by
  cases token with
  | opening => cases plain
  | closing => cases plain
  | conj => rfl
  | disj => rfl
  | neg => rfl
  | truth value => rfl
  | atom name => rfl

end Engine

/-! ### Replacements of scans -/

def replacementsOf (applications : List Application) : Nat :=
  (applications.map Application.fired).sum

theorem replacementsOf_append (first second : List Application) :
    replacementsOf (first ++ second) = replacementsOf first + replacementsOf second := by
  rw [replacementsOf, List.map_append, List.sum_append]
  rfl

theorem passApplications_replacements (rules : List Rule) (tokens : List Token) :
    (runPass rules tokens).replacements = replacementsOf (passApplications rules tokens) := by
  induction rules generalizing tokens with
  | nil => rfl
  | cons rule rules ih =>
      rw [runPass_replacements, ih, passApplications, replacementsOf, replacementsOf, List.map_cons,
        List.sum_cons]
      rfl

theorem passesApplications_replacements (rules : List Rule) (budget : Nat) (tokens : List Token)
    (stats : Stats) :
    (runPasses rules budget tokens stats).stats.replacements =
      stats.replacements + replacementsOf (passesApplications rules budget tokens) := by
  induction budget generalizing tokens stats with
  | zero => rfl
  | succ budget ih =>
      rw [passesApplications, replacementsOf_append, ← passApplications_replacements]
      by_cases same : (runPass rules tokens).tokens = tokens
      · simp only [runPasses, if_pos same]
        rfl
      · simp only [runPasses, if_neg same]
        exact (ih _ _).trans (Nat.add_assoc _ _ _)

namespace Engine

variable (engine : Engine)

theorem levelApplications_replacements (tokens : List Token) (stats : Stats) :
    (engine.fixedPoint tokens stats).stats.replacements =
      stats.replacements + replacementsOf (engine.levelApplications tokens stats) :=
  passesApplications_replacements engine.rules (engine.maxPasses - stats.passes) tokens stats

theorem applicationsFrom_replacements (input tokens collected : List Token) (position : Nat)
    (groups : List OpenGroup) (stats : Stats) :
    (engine.simplifyFrom input position tokens collected groups stats).stats.replacements =
      stats.replacements +
        replacementsOf (engine.applicationsFrom tokens collected (groups.map OpenGroup.around)
          stats) := by
  induction tokens generalizing position collected groups stats with
  | nil =>
      cases groups with
      | nil => exact engine.levelApplications_replacements collected.reverse stats
      | cons group groups => rfl
  | cons token rest ih =>
      rcases token.opening_or_closing_or_plain with rfl | rfl | plain
      · exact ih _ _ (⟨position, collected⟩ :: groups) stats
      · cases groups with
        | nil => rfl
        | cons group groups =>
            have level := engine.levelApplications_replacements collected.reverse stats
            rw [simplifyFrom, Outcome.andThen, List.map_cons, applicationsFrom,
              replacementsOf_append, ← Nat.add_assoc, ← level]
            cases (engine.fixedPoint collected.reverse stats).result with
            | ok interior => exact ih _ _ groups _
            | error failure => rfl
      · rw [engine.simplifyFrom_plain _ _ _ _ _ _ _ plain,
          engine.applicationsFrom_plain _ _ _ _ _ plain]
        exact ih _ _ _ _

end Engine

/-! ### Rules without replacements -/

/-- No scan of the rules replaces anything. -/
def Idle (rules : List Rule) (applications : List Application) : Prop :=
  ∀ application ∈ applications, application.rule ∈ rules → application.fired = 0

namespace Idle

variable {rules : List Rule}

theorem cons {rule : Rule} {tokens : List Token} {applications : List Application}
    (later : Idle rules applications) (first : rule ∈ rules → (rule.apply tokens).fired = 0) :
    Idle rules (⟨rule, tokens⟩ :: applications) :=
  List.forall_mem_cons.mpr ⟨first, later⟩

theorem cons_other {rule : Rule} {tokens : List Token} {applications : List Application}
    (later : Idle rules applications) (other : rule ∉ rules) :
    Idle rules (⟨rule, tokens⟩ :: applications) :=
  later.cons fun member => absurd member other

theorem append_iff {first second : List Application} :
    Idle rules (first ++ second) ↔ Idle rules first ∧ Idle rules second :=
  List.forall_mem_append

end Idle

def without (dropped rules : List Rule) : List Rule :=
  rules.filter fun rule => rule ∉ dropped

theorem runPass_without (dropped rules : List Rule) (tokens : List Token)
    (idle : Idle dropped (passApplications rules tokens)) :
    runPass (without dropped rules) tokens = runPass rules tokens := by
  induction rules generalizing tokens with
  | nil => rfl
  | cons rule rules ih =>
      obtain ⟨first, later⟩ := List.forall_mem_cons.mp idle
      have same := ih _ later
      by_cases isDropped : rule ∈ dropped
      · have copied := rule.apply_of_idle tokens (first isDropped)
        rw [copied] at same
        rw [without, List.filter_cons_of_neg (by simpa using isDropped), runPass, copied]
        exact same
      · rw [without, List.filter_cons_of_pos (by simpa using isDropped), ← without]
        simp only [runPass, same]

theorem runPasses_without (dropped rules : List Rule) (budget : Nat) (tokens : List Token)
    (stats : Stats) (idle : Idle dropped (passesApplications rules budget tokens)) :
    runPasses (without dropped rules) budget tokens stats =
      runPasses rules budget tokens stats := by
  induction budget generalizing tokens stats with
  | zero => rfl
  | succ budget ih =>
      obtain ⟨inPass, later⟩ := Idle.append_iff.mp idle
      have same := runPass_without dropped rules tokens inPass
      simp only [runPasses, same]
      by_cases stable : (runPass rules tokens).tokens = tokens
      · rw [if_pos stable, if_pos stable]
      · rw [if_neg stable] at later
        rw [if_neg stable, if_neg stable, ih _ _ later]

namespace Engine

theorem simplifyFrom_without (dropped rules : List Rule) (maxPasses : Nat)
    (input tokens collected : List Token) (position : Nat) (groups : List OpenGroup)
    (stats : Stats)
    (idle : Idle dropped (applicationsFrom ⟨rules, maxPasses⟩ tokens collected
      (groups.map OpenGroup.around) stats)) :
    simplifyFrom ⟨without dropped rules, maxPasses⟩ input position tokens collected groups stats =
      simplifyFrom ⟨rules, maxPasses⟩ input position tokens collected groups stats := by
  have level (flat : List Token) (before : Stats)
      (levelIdle : Idle dropped (levelApplications ⟨rules, maxPasses⟩ flat before)) :
      fixedPoint ⟨without dropped rules, maxPasses⟩ flat before =
        fixedPoint ⟨rules, maxPasses⟩ flat before :=
    runPasses_without dropped rules (maxPasses - before.passes) flat before levelIdle
  induction tokens generalizing position collected groups stats with
  | nil =>
      cases groups with
      | nil => exact level collected.reverse stats idle
      | cons group groups => rfl
  | cons token rest ih =>
      rcases token.opening_or_closing_or_plain with rfl | rfl | plain
      · exact ih _ _ (⟨position, collected⟩ :: groups) stats idle
      · cases groups with
        | nil => rfl
        | cons group groups =>
            obtain ⟨inGroup, later⟩ := Idle.append_iff.mp idle
            rw [simplifyFrom, simplifyFrom, level _ _ inGroup, Outcome.andThen, Outcome.andThen]
            cases reached : (fixedPoint ⟨rules, maxPasses⟩ collected.reverse stats).result with
            | ok interior =>
                rw [reached] at later
                dsimp only
                rw [ih _ _ groups _ later]
            | error failure => rfl
      · rw [applicationsFrom_plain _ _ _ _ _ _ plain] at idle
        rw [simplifyFrom_plain _ _ _ _ _ _ _ _ plain, simplifyFrom_plain _ _ _ _ _ _ _ _ plain]
        exact ih _ _ _ _ idle

end Engine

end BoolSimplify
