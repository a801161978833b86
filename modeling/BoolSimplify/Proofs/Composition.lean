/-
Simplifying a group ahead.

A group is simplified on its own before anything around it is looked at.  Hence it
can as well be replaced beforehand by what its simplification puts back: the run
finds all groups of the replacement settled, and goes on as it would have done.
The main statement says that this never changes a result and never takes more
passes, wherever the group stands.
-/

import BoolSimplify.Proofs.Stability

namespace BoolSimplify

/-! ### Runs that start with fewer passes -/

/-- A step has the result of another one and uses as many passes, but starts with
the counters `second` instead of `first`. -/
def Outcome.Repeats {Result : Type} (again outcome : Outcome Result) (second first : Stats) :
    Prop :=
  again.result = outcome.result ∧
    again.stats.passes + first.passes = outcome.stats.passes + second.passes

namespace Outcome.Repeats

variable {First Second : Type} {again outcome : Outcome First} {second first : Stats}

theorem of_work {otherAgain other : Outcome First} (sameAgain : otherAgain.work = again.work)
    (sameOther : other.work = outcome.work) (repeats : again.Repeats outcome second first) :
    otherAgain.Repeats other second first := by
  unfold Repeats
  rw [result_of_work sameAgain, result_of_work sameOther, stats_of_work sameAgain,
    stats_of_work sameOther]
  exact repeats

theorem andThen (repeats : again.Repeats outcome second first) {value : First}
    (succeeded : outcome.result = .ok value) {next other : First → Stats → Outcome Second}
    (later : (other value again.stats).Repeats (next value outcome.stats) again.stats
      outcome.stats) :
    (again.andThen other).Repeats (outcome.andThen next) second first := by
  apply of_work (again.andThen_of_ok other value (repeats.1.trans succeeded))
    (outcome.andThen_of_ok next value succeeded)
  refine ⟨later.1, ?_⟩
  have paidFirst := repeats.2
  have paidLater := later.2
  omega

end Outcome.Repeats

/-- What repeated passes reach does not depend on the counters before, nor on how
many passes are left in the end. -/
theorem runPasses_of_larger (rules : List Rule) (budget larger : Nat) (tokens reached : List Token)
    (first second : Stats) (enough : budget ≤ larger)
    (succeeded : (runPasses rules budget tokens first).result = .ok reached) :
    (runPasses rules larger tokens second).Repeats (runPasses rules budget tokens first) second
      first := by
  induction budget generalizing larger tokens first second with
  | zero => cases succeeded
  | succ budget ih =>
      cases larger with
      | zero => cases enough
      | succ larger =>
          by_cases same : (runPass rules tokens).tokens = tokens
          · simp only [runPasses, if_pos same]
            refine ⟨rfl, ?_⟩
            simp only [Stats.countPass_passes]
            omega
          · simp only [runPasses, if_neg same, Outcome.after] at succeeded ⊢
            have later := ih larger _ _ (second.countPass (runPass rules tokens).replacements)
              (Nat.le_of_succ_le_succ enough) succeeded
            have paid := later.2
            simp only [Stats.countPass_passes] at paid
            refine ⟨later.1, ?_⟩
            dsimp only
            omega

namespace Engine

variable {engine : Engine}

theorem fixedPoint_earlier (tokens reached : List Token) (first second : Stats)
    (fewer : second.passes ≤ first.passes)
    (succeeded : (engine.fixedPoint tokens first).result = .ok reached) :
    (engine.fixedPoint tokens second).Repeats (engine.fixedPoint tokens first) second first :=
  runPasses_of_larger engine.rules _ _ tokens reached first second
    (Nat.sub_le_sub_left fewer engine.maxPasses) succeeded

theorem Flattens.earlier {forest : Forest} {first last : Stats} {flat : List Token}
    (flattened : engine.Flattens forest first flat last) (second : Stats)
    (fewer : second.passes ≤ first.passes) :
    ∃ ended, engine.Flattens forest second flat ended ∧
      ended.passes + first.passes = last.passes + second.passes := by
  induction flattened generalizing second with
  | empty stats => exact ⟨second, .empty second, Nat.add_comm _ _⟩
  | single later ih =>
      obtain ⟨ended, flattenedAgain, paid⟩ := ih second fewer
      exact ⟨ended, .single flattenedAgain, paid⟩
  | @group inner rest first between last flat interior flatRest inside reached later ihInside
      ihLater =>
      obtain ⟨middle, insideAgain, paidInside⟩ := ihInside second fewer
      have repeats := fixedPoint_earlier flat interior between middle (by omega) reached
      have paidFixed := repeats.2
      obtain ⟨ended, laterAgain, paidLater⟩ :=
        ihLater (engine.fixedPoint flat middle).stats.countGroup
          (by simp only [Stats.countGroup_passes]; omega)
      simp only [Stats.countGroup_passes] at paidLater
      exact ⟨ended, .group insideAgain (repeats.1.trans reached) laterAgain, by omega⟩

/-- How a run ends depends on what the open groups had collected, and not on where
they were opened or which input is named in failures. -/
theorem simplifyFrom_earlier (input other : List Token) (position place : Nat)
    (tokens collected result : List Token) (groups others : List OpenGroup) (first second : Stats)
    (sameAround : groups.map OpenGroup.around = others.map OpenGroup.around)
    (fewer : second.passes ≤ first.passes)
    (succeeded : (engine.simplifyFrom input position tokens collected groups first).result =
      .ok result) :
    (engine.simplifyFrom other place tokens collected others second).Repeats
      (engine.simplifyFrom input position tokens collected groups first) second first := by
  induction tokens generalizing position place collected groups others first second with
  | nil =>
      cases groups with
      | cons group groups => cases succeeded
      | nil =>
          cases others with
          | cons group others => cases sameAround
          | nil => exact fixedPoint_earlier collected.reverse result first second fewer succeeded
  | cons token rest ih =>
      rcases token.opening_or_closing_or_plain with rfl | rfl | plain
      · exact ih _ _ _ _ _ _ _ (congrArg (List.cons collected) sameAround) fewer succeeded
      · cases groups with
        | nil => cases succeeded
        | cons group groups =>
            cases others with
            | nil => cases sameAround
            | cons otherGroup others =>
                obtain ⟨sameCollected, sameOuter⟩ := List.cons.inj sameAround
                obtain ⟨interior, reached, later, _⟩ := Outcome.andThen_eq_ok _ _ _ succeeded
                have repeats := fixedPoint_earlier _ interior first second fewer reached
                have paid := repeats.2
                have laterRepeats := ih _ (place + 1) _ _ others _
                  (engine.fixedPoint collected.reverse second).stats.countGroup sameOuter
                  (by simp only [Stats.countGroup_passes]; omega) later
                refine repeats.andThen reached ?_
                rw [← sameCollected]
                exact laterRepeats
      · rw [engine.simplifyFrom_plain _ _ _ _ _ _ _ plain] at succeeded ⊢
        rw [engine.simplifyFrom_plain _ _ _ _ _ _ _ plain]
        exact ih _ _ _ _ _ _ _ sameAround fewer succeeded

/-! ### What comes before a group -/

theorem simplifyFrom_passes (before rest input collected result : List Token) (position : Nat)
    (groups : List OpenGroup) (stats : Stats)
    (succeeded : (engine.simplifyFrom input position (before ++ rest) collected groups
      stats).result = .ok result) :
    ∃ kept opened spent, ∀ other following : List Token,
      (engine.simplifyFrom other position (before ++ following) collected groups stats).work =
        (engine.simplifyFrom other (position + before.length) following kept opened spent).work := by
  induction before generalizing position collected groups stats with
  | nil => exact ⟨collected, groups, stats, fun other following => rfl⟩
  | cons token before ih =>
      have onward (kept : List Token) (opened : List OpenGroup) (spent : Stats)
          (laterSucceeded : (engine.simplifyFrom input (position + 1) (before ++ rest) kept opened
            spent).result = .ok result)
          (steps : ∀ other following : List Token,
            (engine.simplifyFrom other position (token :: before ++ following) collected groups
              stats).work =
            (engine.simplifyFrom other (position + 1) (before ++ following) kept opened
              spent).work) :
          ∃ kept opened spent, ∀ other following : List Token,
            (engine.simplifyFrom other position (token :: before ++ following) collected groups
              stats).work =
            (engine.simplifyFrom other (position + (token :: before).length) following kept opened
              spent).work := by
        obtain ⟨lastKept, lastOpened, lastSpent, passes⟩ := ih _ _ _ _ laterSucceeded
        refine ⟨lastKept, lastOpened, lastSpent, fun other following => ?_⟩
        rw [List.length_cons, Nat.add_comm before.length, ← Nat.add_assoc]
        exact (steps other following).trans (passes other following)
      rcases token.opening_or_closing_or_plain with rfl | rfl | plain
      · exact onward _ _ _ succeeded (fun other following => rfl)
      · cases groups with
        | nil => cases succeeded
        | cons group groups =>
            obtain ⟨interior, reached, later, _⟩ := Outcome.andThen_eq_ok _ _ _ succeeded
            refine onward _ _ _ later (fun other following => ?_)
            exact Outcome.andThen_of_ok _ _ interior reached
      · rw [List.cons_append, engine.simplifyFrom_plain _ _ _ _ _ _ _ plain] at succeeded
        refine onward _ _ _ succeeded (fun other following => ?_)
        rw [List.cons_append, engine.simplifyFrom_plain _ _ _ _ _ _ _ plain]

theorem simplifyFrom_flattened {forest : Forest} {stats last : Stats} {flat : List Token}
    (flattened : engine.Flattens forest stats flat last) (input rest collected : List Token)
    (position : Nat) (groups : List OpenGroup) :
    (engine.simplifyFrom input position (forest.tokens ++ rest) collected groups stats).work =
      (engine.simplifyFrom input (position + forest.tokens.length) rest
        (flat.reverse ++ collected) groups last).work := by
  obtain ⟨sameFlat, sameLast⟩ := engine.flatten_of_flattens flattened
  have work := (engine.simplifyFrom_forest input forest position rest collected groups stats).trans
    (Outcome.andThen_of_ok _ _ flat sameFlat)
  rwa [sameLast] at work

theorem flattens_of_simplifyFrom (forest : Forest) (input rest collected result : List Token)
    (position : Nat) (groups : List OpenGroup) (stats : Stats)
    (succeeded : (engine.simplifyFrom input position (forest.tokens ++ rest) collected groups
      stats).result = .ok result) :
    ∃ flat last, engine.Flattens forest stats flat last := by
  rw [Outcome.result_of_work
    (engine.simplifyFrom_forest input forest position rest collected groups stats)] at succeeded
  obtain ⟨flat, flattened, _⟩ := Outcome.andThen_eq_ok _ _ _ succeeded
  exact ⟨flat, _, engine.flattens_of_flatten forest stats flat flattened⟩

end Engine

/-! ### A group and what is put back for it -/

namespace Simplifier

variable {simplifier : Simplifier}

/-- What a simplified group leaves behind is settled, and to flatten it again takes no
more passes than simplifying the group has taken. -/
theorem flattens_asOperand {inner : Forest} {first between : Stats} {flat interior : List Token}
    (inside : simplifier.engine.Flattens inner first flat between)
    (reached : (simplifier.engine.fixedPoint flat between).result = .ok interior) :
    ∃ (putBack : Forest) (last : Stats), putBack.tokens = asOperand interior ∧
      simplifier.engine.Flattens putBack first (asOperand interior) last ∧
      last.passes ≤ (simplifier.engine.fixedPoint flat between).stats.passes := by
  have faithful : Faithful simplifier.engine.rules := faithful_catalog
  have interiorBalanced : Balanced interior :=
    (faithful.fixedPoint flat interior between reached).2.symm.trans (faithful.flattens inside).2
  have irreducible := simplifier.irreducible_of_fixedPoint flat interior between reached
  have settledInterior := simplifier.settled_of_fixedPoint flat interior between reached
    (settled_of_flattens inside)
  have settled := settled_asOperand interiorBalanced irreducible settledInterior
  have fewerGroups : first.passes + (asOperand interior).count .opening ≤
      (simplifier.engine.fixedPoint flat between).stats.passes := by
    obtain ⟨flatGroups, insidePasses⟩ := count_opening_of_flattens inside
    have interiorGroups := count_opening_of_fixedPoint flat interior between reached
    have operandGroups := count_opening_asOperand_le interior
    have onePass :=
      (simplifier.engine.fixedPoint_settles flat interior between reached).passes_lt
    omega
  have within := simplifier.engine.fixedPoint_passes_le flat interior between reached
  obtain ⟨putBack, putBackEq⟩ := interiorBalanced.asOperand.exists_forest
  rw [← putBackEq] at settled fewerGroups ⊢
  obtain ⟨last, unchanged, lastPasses, _⟩ :=
    simplifier.engine.flattens_settled putBack first settled (by omega)
  exact ⟨putBack, last, rfl, unchanged, by omega⟩

theorem simplifyFrom_group_ahead (inner : Forest) (input rest collected result : List Token)
    (position : Nat) (groups : List Engine.OpenGroup) (stats : Stats)
    (succeeded : (simplifier.engine.simplifyFrom input position
      ((Forest.group inner .empty).tokens ++ rest) collected groups stats).result = .ok result) :
    ∃ interior, (simplifier.simplifyTokens inner.tokens).result = .ok interior ∧
      ∀ other : List Token,
        (simplifier.engine.simplifyFrom other position (asOperand interior ++ rest) collected groups
          stats).result = .ok result ∧
        (simplifier.engine.simplifyFrom other position (asOperand interior ++ rest) collected groups
            stats).stats.passes ≤
          (simplifier.engine.simplifyFrom input position
            ((Forest.group inner .empty).tokens ++ rest) collected groups stats).stats.passes := by
  obtain ⟨flat, last, grouped⟩ := Engine.flattens_of_simplifyFrom _ _ _ _ _ _ _ _ succeeded
  have original := Engine.simplifyFrom_flattened grouped input rest collected position groups
  cases grouped with
  | @group _ _ _ between _ flatInner interior _ inside reached nothing =>
      cases nothing
      have noPasses := Stats.zero_passes
      obtain ⟨ended, insideAlone, paid⟩ := inside.earlier .zero (Nat.zero_le _)
      have repeats := Engine.fixedPoint_earlier flatInner interior between ended (by omega) reached
      have alone :=
        simplifier.engine.simplify_of_flattens insideAlone (repeats.1.trans reached)
      refine ⟨interior, alone.1, fun other => ?_⟩
      obtain ⟨putBack, spent, putBackEq, unchanged, fewer⟩ := flattens_asOperand inside reached
      have ahead := Engine.simplifyFrom_flattened unchanged other rest collected position groups
      rw [putBackEq] at ahead
      rw [Outcome.result_of_work original, List.append_nil] at succeeded
      have later := Engine.simplifyFrom_earlier input other _
        (position + (asOperand interior).length) _ _ result groups groups
        (simplifier.engine.fixedPoint flatInner between).stats.countGroup spent rfl fewer succeeded
      have laterPasses := later.2
      rw [Outcome.result_of_work ahead, Outcome.stats_of_work ahead, Outcome.stats_of_work original,
        List.append_nil]
      refine ⟨later.1.trans succeeded, ?_⟩
      change _ + (simplifier.engine.fixedPoint flatInner between).stats.passes = _ at laterPasses
      omega

/-- A group can be simplified ahead of the tokens around it.  Putting its result in its
place leads to the same result of the whole, which takes no more passes than before. -/
theorem simplify_group_ahead (before inner after result : List Token) (balanced : Balanced inner)
    (succeeded : (simplifier.simplifyTokens
      (before ++ .opening :: (inner ++ .closing :: after))).result = .ok result) :
    ∃ interior, (simplifier.simplifyTokens inner).result = .ok interior ∧
      (simplifier.simplifyTokens (before ++ (asOperand interior ++ after))).result = .ok result ∧
      (simplifier.simplifyTokens (before ++ (asOperand interior ++ after))).stats.passes ≤
        (simplifier.simplifyTokens
          (before ++ .opening :: (inner ++ .closing :: after))).stats.passes := by
  obtain ⟨forest, rfl⟩ := balanced.exists_forest
  have sameGroup : .opening :: (forest.tokens ++ .closing :: after) =
      (Forest.group forest .empty).tokens ++ after := by
    simp only [Forest.tokens, List.cons_append, List.append_assoc, List.nil_append]
  rw [sameGroup] at succeeded ⊢
  obtain ⟨kept, opened, spent, passes⟩ :=
    Engine.simplifyFrom_passes before _ _ _ result _ _ _ succeeded
  have work := passes (before ++ ((Forest.group forest .empty).tokens ++ after))
    ((Forest.group forest .empty).tokens ++ after)
  rw [simplifyTokens, Engine.simplify, Outcome.result_of_work work] at succeeded
  obtain ⟨interior, alone, ahead⟩ := simplifyFrom_group_ahead _ _ _ _ _ _ _ _ succeeded
  obtain ⟨sameResult, fewer⟩ := ahead (before ++ (asOperand interior ++ after))
  have workAhead := passes (before ++ (asOperand interior ++ after)) (asOperand interior ++ after)
  refine ⟨interior, alone, (Outcome.result_of_work workAhead).trans sameResult, ?_⟩
  unfold simplifyTokens Engine.simplify
  rw [Outcome.stats_of_work work, Outcome.stats_of_work workAhead]
  exact fewer

theorem simplify_group_ahead_distributed :
    Balanced (tokenize "(A & B) | (A & C)") ∧
      ((Simplifier.mk 6).simplifyTokens (tokenize "foo ~(C &" ++ .opening ::
          (tokenize "(A & B) | (A & C)" ++ .closing :: tokenize ") |"))).result =
        .ok (tokenize "foo ~(C & (A & (B | C))) |") ∧
      ∃ interior,
        ((Simplifier.mk 6).simplifyTokens (tokenize "(A & B) | (A & C)")).result = .ok interior ∧
        ((Simplifier.mk 6).simplifyTokens
            (tokenize "foo ~(C &" ++ (asOperand interior ++ tokenize ") |"))).result =
          .ok (tokenize "foo ~(C & (A & (B | C))) |") ∧
        ((Simplifier.mk 6).simplifyTokens
            (tokenize "foo ~(C &" ++ (asOperand interior ++ tokenize ") |"))).stats.passes ≤
          ((Simplifier.mk 6).simplifyTokens (tokenize "foo ~(C &" ++ .opening ::
            (tokenize "(A & B) | (A & C)" ++ .closing :: tokenize ") |"))).stats.passes := by
  have balanced : Balanced (tokenize "(A & B) | (A & C)") := by rfl
  have succeeded : ((Simplifier.mk 6).simplifyTokens (tokenize "foo ~(C &" ++ .opening ::
      (tokenize "(A & B) | (A & C)" ++ .closing :: tokenize ") |"))).result =
        .ok (tokenize "foo ~(C & (A & (B | C))) |") := by rfl
  exact ⟨balanced, succeeded, simplify_group_ahead _ _ _ _ balanced succeeded⟩

end Simplifier

end BoolSimplify
