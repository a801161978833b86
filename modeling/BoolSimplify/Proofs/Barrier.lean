/-
A word between two balanced lists.

A rule of the catalog takes a word only inside of a group, and a match that ends in front
of a word is admitted as it is at the end.  So no replacement reaches across a word outside
of all groups, and the lists on its two sides are simplified as if each of them stood alone,
although they share their passes.  The main statement says so for scans and for runs.
-/

import BoolSimplify.Proofs.Convergence
import BoolSimplify.Proofs.Log
import BoolSimplify.Proofs.Neighbours
import BoolSimplify.Proofs.Recursion

namespace BoolSimplify

/-! ### Runs in groups -/

/-- Every run of a pattern stands in a group that the pattern opens itself, when `before` is
left over of what stands before the pattern. -/
def RunsInGroups : (before : Unmatched) → (pattern : List Element) → Prop
  | _, [] => True
  | before, element :: pattern =>
      (element = Element.run → before.openings ≠ 0) ∧ RunsInGroups (before.step element) pattern

instance decidableRunsInGroups :
    (before : Unmatched) → (pattern : List Element) → Decidable (RunsInGroups before pattern)
  | _, [] => .isTrue trivial
  | before, element :: pattern =>
      have := decidableRunsInGroups (before.step element) pattern
      inferInstanceAs (Decidable ((element = Element.run → before.openings ≠ 0) ∧ _))

theorem runsInGroups_catalog : ∀ rule ∈ catalog, RunsInGroups .zero rule.pattern := by
  decide +kernel

theorem openings_of_append (left right : List Token)
    (closed : (unmatched (left ++ right)).openings = 0) : (unmatched right).openings = 0 := by
  rw [openings_append] at closed
  omega

/-! ### Matches in front of a word -/

namespace Match

theorem extend_word (bindings : Bindings) (text : String) (rest : List Token) (element : Element)
    (notRun : element ≠ Element.run) :
    (mk bindings (.word text :: rest)).extend element = none := by
  cases element with
  | atom placeholder =>
      cases placeholder with
      | slot slot => rfl
      | run => exact absurd rfl notRun
  | opening | closing | conj | disj | neg => rfl
  | truth value => rfl

/-- The runs of a pattern end with their groups, and all groups end in front of the word. -/
theorem extendAll_push_word (found : Match) (pattern : List Element) (consumed : List Token)
    (text : String) (after : List Token) (grouped : RunsInGroups (unmatched consumed) pattern)
    (closed : (unmatched (consumed ++ found.rest)).openings = 0) :
    (found.push (.word text :: after)).extendAll pattern =
      (found.extendAll pattern).map (push (.word text :: after)) := by
  induction pattern generalizing found consumed with
  | nil => rfl
  | cons element pattern ih =>
      obtain ⟨enclosed, groupedLater⟩ := grouped
      have notBalanced (isRun : element = Element.run) : ¬Balanced found.rest := by
        intro balanced
        have opened := enclosed isRun
        rw [openings_append, balanced] at closed
        exact opened (Nat.eq_zero_of_add_eq_zero_left closed)
      have here : (found.push (.word text :: after)).extend element =
          (found.extend element).map (push (.word text :: after)) := by
        by_cases remaining : found.rest = []
        · have notRun : element ≠ Element.run := by
            intro isRun
            rw [remaining] at notBalanced
            exact notBalanced isRun .nil
          obtain ⟨bindings, tokens⟩ := found
          cases remaining
          rw [extend_nil]
          exact extend_word bindings text after element notRun
        · exact extend_push found element _ remaining
            (fun isRun => leadingRun_append_of_not_balanced (notBalanced isRun) _)
      simp only [extendAll]
      rw [here]
      cases extended : found.extend element with
      | none => rfl
      | some next =>
          obtain ⟨taken, restEq, sameParentheses⟩ := extendAll_unmatched found next [element]
            (by rw [extendAll, extended]; rfl)
          have step : unmatched (consumed ++ taken) = (unmatched consumed).step element := by
            rw [unmatched_append, sameParentheses]
            exact (foldl_step_eq_join _ [element]).symm
          refine ih next (consumed ++ taken) ?_ ?_
          · rw [step]
            exact groupedLater
          · rw [List.append_assoc, ← restEq]
            exact closed

end Match

theorem Strength.admits_word (strength : Strength) (previous : Option Token) (rest : List Token)
    (text : String) (after : List Token) :
    strength.admits previous (rest ++ .word text :: after).head? =
      strength.admits previous rest.head? := by
  cases rest with
  | nil => cases strength <;> rfl
  | cons token rest => rfl

/-! ### Scans -/

/-- What two scans wrote, with a word between. -/
def Scanned.around (text : String) (left right : Scanned) : Scanned :=
  ⟨left.tokens ++ .word text :: right.tokens, left.fired + right.fired⟩

namespace Rule

variable {rule : Rule} (grouped : RunsInGroups .zero rule.pattern)

include grouped

theorem redex_push_word (previous : Option Token) (tokens : List Token) (text : String)
    (after : List Token) (closed : (unmatched tokens).openings = 0) :
    rule.redex? previous (tokens ++ .word text :: after) =
      (rule.redex? previous tokens).map (Match.push (.word text :: after)) := by
  have matched : rule.match? (tokens ++ .word text :: after) =
      (rule.match? tokens).map (Match.push (.word text :: after)) :=
    Match.extendAll_push_word ⟨.empty, tokens⟩ rule.pattern [] text after grouped closed
  have admitted (found : Match) :
      rule.strength.admits previous (found.push (.word text :: after)).rest.head? =
        rule.strength.admits previous found.rest.head? :=
    rule.strength.admits_word previous found.rest text after
  unfold redex?
  rw [matched, Option.filter_map]
  simp only [Function.comp_def, admitted]

/-- A scan comes to the word as it comes to the end, and begins again behind it. -/
theorem scan_around (previous : Option Token) (tokens : List Token) (text : String)
    (after : List Token) (closed : (unmatched tokens).openings = 0) :
    rule.scan previous 0 (tokens ++ .word text :: after) =
      (rule.scan previous 0 tokens).around text (rule.apply after) := by
  induction previous, tokens using rule.scan_induct with
  | ended previous =>
      have pushed := redex_push_word grouped previous [] text after closed
      have wordEnds : (Token.word text).endsOperand = true := rfl
      have begins := rule.scan_congr (.of_endsOperand wordEnds) after
      rw [rule.redex_nil, Option.map_none, List.nil_append] at pushed
      rw [List.nil_append, rule.scan_of_no_redex _ _ after pushed, begins]
      simp only [scan, Scanned.around, apply, List.nil_append, Nat.zero_add]
  | passed previous token rest noRedex ih =>
      have pushed := redex_push_word grouped previous (token :: rest) text after closed
      rw [noRedex, Option.map_none, List.cons_append] at pushed
      have closedRest : (unmatched rest).openings = 0 := openings_of_append [token] rest closed
      rw [List.cons_append, rule.scan_of_no_redex _ token _ pushed,
        rule.scan_of_no_redex _ token rest noRedex, ih closedRest]
      rfl
  | replaced previous tokens found redex ih =>
      have pushed := redex_push_word grouped previous tokens text after closed
      rw [redex, Option.map_some] at pushed
      obtain ⟨matched, _⟩ := (rule.redex_eq_some_iff _ tokens found).mp redex
      obtain ⟨token, consumed, tokensEq⟩ := rule.match_rest tokens found matched
      have closedRest : (unmatched found.rest).openings = 0 := by
        rw [tokensEq, ← List.cons_append] at closed
        exact openings_of_append _ found.rest closed
      rw [rule.scan_of_redex _ _ _ pushed, rule.scan_of_redex _ tokens found redex]
      simp only [Match.push, ih closedRest, Scanned.around, List.append_assoc, Nat.add_right_comm]

theorem apply_around (before after : List Token) (text : String)
    (closed : (unmatched before).openings = 0) :
    rule.apply (before ++ .word text :: after) =
      (rule.apply before).around text (rule.apply after) :=
  scan_around grouped none before text after closed

end Rule

/-! ### Passes -/

theorem runPass_around {rules : List Rule} (faithful : Faithful rules)
    (grouped : ∀ rule ∈ rules, RunsInGroups .zero rule.pattern) (before after : List Token)
    (text : String) (closed : (unmatched before).openings = 0) :
    (runPass rules (before ++ .word text :: after)).tokens =
        (runPass rules before).tokens ++ .word text :: (runPass rules after).tokens ∧
      (runPass rules (before ++ .word text :: after)).replacements =
        (runPass rules before).replacements + (runPass rules after).replacements := by
  induction rules generalizing before after with
  | nil => exact ⟨rfl, rfl⟩
  | cons rule rules ih =>
      have faithfulLater : Faithful rules :=
        fun other member => faithful other (List.mem_cons_of_mem rule member)
      have scanned := Rule.apply_around (grouped rule List.mem_cons_self) before after text closed
      have closedScanned : (unmatched (rule.apply before).tokens).openings = 0 := by
        have rewritten : Rewrites (rule :: rules) _ before (rule.apply before).tokens :=
          (rule.apply_rewrites before).mono
            (List.forall_mem_singleton.mpr List.mem_cons_self)
        rw [← (faithful.rewrites rewritten).2]
        exact closed
      obtain ⟨tokens, replacements⟩ := ih faithfulLater
        (fun other member => grouped other (List.mem_cons_of_mem rule member))
        (rule.apply before).tokens (rule.apply after).tokens closedScanned
      simp only [runPass_tokens, runPass_replacements, scanned, Scanned.around, tokens,
        replacements, true_and]
      omega

/-- Passes over `tokens`, as many as it takes, make `count` replacements before one makes
none, and then `reached` is left. -/
inductive Reaches (rules : List Rule) : (count : Nat) → (tokens reached : List Token) → Prop where
  | idle {tokens : List Token} (idle : (runPass rules tokens).replacements = 0) :
      Reaches rules 0 tokens tokens
  | pass {count : Nat} {tokens reached : List Token}
      (later : Reaches rules count (runPass rules tokens).tokens reached) :
      Reaches rules ((runPass rules tokens).replacements + count) tokens reached

namespace Reaches

variable {rules : List Rule}

theorem exists_pass {count : Nat} {tokens reached : List Token}
    (reaches : Reaches rules count tokens reached) :
    ∃ later, count = (runPass rules tokens).replacements + later ∧
      Reaches rules later (runPass rules tokens).tokens reached := by
  cases reaches with
  | idle idle =>
      refine ⟨0, idle.symm, ?_⟩
      rw [runPass_of_idle rules tokens idle]
      exact .idle idle
  | pass later => exact ⟨_, rfl, later⟩

theorem of_idle {count : Nat} {tokens reached : List Token}
    (reaches : Reaches rules count tokens reached)
    (idle : (runPass rules tokens).replacements = 0) : count = 0 ∧ reached = tokens := by
  induction reaches with
  | idle => exact ⟨rfl, rfl⟩
  | @pass count tokens reached later ih =>
      rw [runPass_of_idle rules tokens idle] at ih
      rw [idle, Nat.zero_add]
      exact ih idle

theorem unique {first second : Nat} {tokens left right : List Token}
    (leftReached : Reaches rules first tokens left)
    (rightReached : Reaches rules second tokens right) : first = second ∧ left = right := by
  induction leftReached generalizing second with
  | idle idle =>
      obtain ⟨rfl, rfl⟩ := rightReached.of_idle idle
      exact ⟨rfl, rfl⟩
  | pass later ih =>
      obtain ⟨second, rfl, laterRight⟩ := rightReached.exists_pass
      obtain ⟨rfl, rfl⟩ := ih laterRight
      exact ⟨rfl, rfl⟩

/-- The side that comes to its end first is left as it is by the passes that the other
one still takes. -/
theorem around (faithful : Faithful rules)
    (grouped : ∀ rule ∈ rules, RunsInGroups .zero rule.pattern) {first second : Nat}
    {before after left right : List Token} (beforeReaches : Reaches rules first before left)
    (afterReaches : Reaches rules second after right) (text : String)
    (closed : (unmatched before).openings = 0) :
    Reaches rules (first + second) (before ++ .word text :: after)
      (left ++ .word text :: right) := by
  have pass (before after : List Token) (closed : (unmatched before).openings = 0) :=
    runPass_around faithful grouped before after text closed
  induction beforeReaches generalizing second after with
  | @idle before idle =>
      induction afterReaches with
      | @idle after idleAfter =>
          refine .idle ?_
          rw [(pass before after closed).2, idle, idleAfter]
      | @pass count after right later ih =>
          obtain ⟨tokens, replacements⟩ := pass before after closed
          rw [runPass_of_idle rules before idle] at tokens
          rw [idle, Nat.zero_add] at replacements
          rw [Nat.zero_add, ← tokens] at ih
          rw [Nat.zero_add, ← replacements]
          exact .pass ih
  | @pass count before left later ih =>
      obtain ⟨tokens, replacements⟩ := pass before after closed
      have closedLater : (unmatched (runPass rules before).tokens).openings = 0 := by
        rw [← (faithful.rewrites (runPass_rewrites rules before)).2]
        exact closed
      obtain ⟨countAfter, rfl, laterAfter⟩ := afterReaches.exists_pass
      have onward := ih laterAfter closedLater
      rw [← tokens] at onward
      rw [Nat.add_add_add_comm, ← replacements]
      exact .pass onward

end Reaches

theorem reaches_of_runPasses {rules : List Rule} {measure : List Token → Nat}
    (decreases : Decreases measure rules) (budget : Nat) (tokens reached : List Token)
    (stats : Stats) (succeeded : (runPasses rules budget tokens stats).result = .ok reached) :
    ∃ count, Reaches rules count tokens reached ∧
      (runPasses rules budget tokens stats).stats.replacements = stats.replacements + count := by
  induction budget generalizing tokens stats with
  | zero => cases succeeded
  | succ budget ih =>
      by_cases same : (runPass rules tokens).tokens = tokens
      · have idle : (runPass rules tokens).replacements = 0 := by
          rw [runPass_of_irreducible rules tokens (decreases.irreducible_of_stable tokens same)]
          rfl
        simp only [runPasses, if_pos same] at succeeded ⊢
        cases succeeded
        exact ⟨0, .idle idle, congrArg (stats.replacements + ·) idle⟩
      · simp only [runPasses, if_neg same, Outcome.after] at succeeded ⊢
        obtain ⟨count, later, counted⟩ := ih _ _ succeeded
        refine ⟨_, .pass later, ?_⟩
        rw [counted, Stats.countPass, Nat.add_assoc]

/-! ### Runs -/

/-- The groups of a forest come to `flat` with `count` replacements, with each group put
back as one operand.  Nothing is said of passes, which the levels of a run share. -/
inductive Forest.Yields (rules : List Rule) : (count : Nat) → Forest → List Token → Prop where
  | empty : Yields rules 0 .empty []
  | single {count : Nat} {token : Token} {plain : token.isParenthesis = false} {rest : Forest}
      {flat : List Token} (later : Yields rules count rest flat) :
      Yields rules count (.single token plain rest) (token :: flat)
  | group {first second third : Nat} {inner rest : Forest} {flat interior flatRest : List Token}
      (inside : Yields rules first inner flat) (reaches : Reaches rules second flat interior)
      (later : Yields rules third rest flatRest) :
      Yields rules (first + second + third) (.group inner rest) (asOperand interior ++ flatRest)

namespace Forest.Yields

variable {rules : List Rule}

theorem unique {first second : Nat} {forest : Forest} {left right : List Token}
    (leftYielded : Yields rules first forest left)
    (rightYielded : Yields rules second forest right) : first = second ∧ left = right := by
  induction leftYielded generalizing second right with
  | empty =>
      cases rightYielded
      exact ⟨rfl, rfl⟩
  | single later ih =>
      cases rightYielded with
      | single otherLater =>
          obtain ⟨rfl, rfl⟩ := ih otherLater
          exact ⟨rfl, rfl⟩
  | group inside reaches later ihInside ihLater =>
      cases rightYielded with
      | group otherInside otherReaches otherLater =>
          obtain ⟨rfl, rfl⟩ := ihInside otherInside
          obtain ⟨rfl, rfl⟩ := reaches.unique otherReaches
          obtain ⟨rfl, rfl⟩ := ihLater otherLater
          exact ⟨rfl, rfl⟩

theorem append {first second : Nat} {forest following : Forest} {flat flatFollowing : List Token}
    (yielded : Yields rules first forest flat)
    (later : Yields rules second following flatFollowing) :
    Yields rules (first + second) (forest.append following) (flat ++ flatFollowing) := by
  induction yielded with
  | empty =>
      rw [Nat.zero_add]
      exact later
  | single _ ih => exact .single ih
  | group inside reaches _ _ ih =>
      rw [List.append_assoc, Nat.add_assoc]
      exact .group inside reaches ih

end Forest.Yields

namespace Engine

variable {engine : Engine} {measure : List Token → Nat} (decreases : Decreases measure engine.rules)

include decreases

theorem Flattens.yields {forest : Forest} {first last : Stats} {flat : List Token}
    (flattened : engine.Flattens forest first flat last) :
    ∃ count, forest.Yields engine.rules count flat ∧
      last.replacements = first.replacements + count := by
  induction flattened with
  | empty stats => exact ⟨0, .empty, rfl⟩
  | single _ ih =>
      obtain ⟨count, later, counted⟩ := ih
      exact ⟨count, .single later, counted⟩
  | @group inner rest first between last flat interior flatRest _ reached _ ihInside ihLater =>
      obtain ⟨countInside, inside, countedInside⟩ := ihInside
      obtain ⟨countFixed, reaches, countedFixed⟩ :=
        reaches_of_runPasses decreases _ flat interior between reached
      obtain ⟨countLater, later, countedLater⟩ := ihLater
      refine ⟨_, .group inside reaches later, ?_⟩
      change (engine.fixedPoint flat between).stats.replacements = _ at countedFixed
      change last.replacements = (engine.fixedPoint flat between).stats.replacements + _
        at countedLater
      omega

/-- A run that succeeds comes to what its groups and then its outermost level come to. -/
theorem yields_of_simplify (faithful : Faithful engine.rules) (tokens result : List Token)
    (succeeded : (engine.simplify tokens .zero).result = .ok result) :
    ∃ (forest : Forest) (flat : List Token) (first second : Nat), forest.tokens = tokens ∧
      forest.Yields engine.rules first flat ∧ Balanced flat ∧
      Reaches engine.rules second flat result ∧
      (engine.simplify tokens .zero).stats.replacements = first + second := by
  obtain ⟨forest, flat, between, tokensEq, flattened, reached, sameStats⟩ :=
    engine.flattens_of_simplify tokens .zero result succeeded
  obtain ⟨first, yielded, countedGroups⟩ := flattened.yields decreases
  obtain ⟨second, reaches, countedLast⟩ :=
    reaches_of_runPasses decreases _ flat result between reached
  refine ⟨forest, flat, first, second, tokensEq, yielded, (faithful.flattens flattened).2, reaches,
    ?_⟩
  change (engine.fixedPoint flat between).stats.replacements = _ at countedLast
  change between.replacements = 0 + first at countedGroups
  rw [sameStats]
  omega

theorem simplify_around_of_ok (faithful : Faithful engine.rules)
    (grouped : ∀ rule ∈ engine.rules, RunsInGroups .zero rule.pattern) (text : String)
    {before after left right result : List Token}
    (leftSucceeded : (engine.simplify before .zero).result = .ok left)
    (rightSucceeded : (engine.simplify after .zero).result = .ok right)
    (succeeded : (engine.simplify (before ++ .word text :: after) .zero).result = .ok result) :
    result = left ++ .word text :: right ∧
      (engine.simplify (before ++ .word text :: after) .zero).stats.replacements =
        (engine.simplify before .zero).stats.replacements +
          (engine.simplify after .zero).stats.replacements := by
  obtain ⟨beforeForest, beforeFlat, beforeFirst, beforeSecond, rfl, beforeYields, flatBalanced,
    beforeReaches, beforeCounted⟩ := yields_of_simplify decreases faithful before left leftSucceeded
  obtain ⟨afterForest, afterFlat, afterFirst, afterSecond, rfl, afterYields, _, afterReaches,
    afterCounted⟩ := yields_of_simplify decreases faithful after right rightSucceeded
  obtain ⟨forest, flat, first, second, tokensEq, yielded, _, reaches, counted⟩ :=
    yields_of_simplify decreases faithful _ result succeeded
  have sameForest : forest = beforeForest.append (.single (.word text) rfl afterForest) :=
    forest.tokens_injective _ (by rw [tokensEq, Forest.tokens_append]; rfl)
  rw [sameForest] at yielded
  obtain ⟨rfl, rfl⟩ := yielded.unique (beforeYields.append (.single afterYields))
  obtain ⟨rfl, rfl⟩ := reaches.unique (beforeReaches.around faithful grouped afterReaches text
    (congrArg Unmatched.openings flatBalanced))
  refine ⟨rfl, ?_⟩
  rw [counted, beforeCounted, afterCounted, Nat.add_add_add_comm]

end Engine

namespace Simplifier

/-- A word between balanced lists keeps them apart.  No scan makes a replacement on one
side that it would not make there without the other, and the run with both comes to what
the runs over each of them come to, with the word between. -/
theorem simplify_around_word (before after : List Token) (text : String)
    (beforeBalanced : Balanced before) (afterBalanced : Balanced after) :
    (∀ rule ∈ catalog, rule.apply (before ++ .word text :: after) =
      (rule.apply before).around text (rule.apply after)) ∧
    ∀ simplifier : Simplifier,
      (before ++ .word text :: after).length + 1 ≤ simplifier.maxPasses →
        ∃ left right, (simplifier.simplifyTokens before).result = .ok left ∧
          (simplifier.simplifyTokens after).result = .ok right ∧
          (simplifier.simplifyTokens (before ++ .word text :: after)).result =
            .ok (left ++ .word text :: right) ∧
          (simplifier.simplifyTokens (before ++ .word text :: after)).stats.replacements =
            (simplifier.simplifyTokens before).stats.replacements +
              (simplifier.simplifyTokens after).stats.replacements := by
  refine ⟨fun rule member => Rule.apply_around (runsInGroups_catalog rule member) before after text
    (congrArg Unmatched.openings beforeBalanced), ?_⟩
  intro simplifier enough
  have faithful : Faithful simplifier.engine.rules := faithful_catalog
  have bothSides : (before ++ .word text :: after).length = before.length + (after.length + 1) :=
    List.length_append
  have converges (tokens : List Token) (balanced : Balanced tokens)
      (short : tokens.length + 1 ≤ simplifier.maxPasses) :=
    simplifier.engine.simplify_converges decreases_weight_catalog tokens balanced short
  obtain ⟨left, leftSucceeded, _⟩ := converges before beforeBalanced (by omega)
  obtain ⟨right, rightSucceeded, _⟩ := converges after afterBalanced (by omega)
  obtain ⟨result, succeeded, _⟩ := converges (before ++ .word text :: after)
    (beforeBalanced.append (afterBalanced.cons rfl)) enough
  obtain ⟨rfl, counted⟩ := Engine.simplify_around_of_ok decreases_weight_catalog faithful
    runsInGroups_catalog text leftSucceeded rightSucceeded succeeded
  exact ⟨left, right, leftSucceeded, rightSucceeded, succeeded, counted⟩

/-- `(A & (A | B)) & ~~~~`, which lacks its last operand -/
def openEnded : List Token :=
  tokenize "(A & (A | B)) & ~~~~"

/-- `| ((~~A bar)) & ~~~~~C`, which lacks its first operand -/
def openStarted : List Token :=
  tokenize "| ((~~A bar)) & ~~~~~C"

theorem simplify_around_word_open :
    Balanced openEnded ∧ Balanced openStarted ∧
      (openEnded ++ .word "foo" :: openStarted).length + 1 ≤ 32 ∧
      ((Simplifier.mk 32).simplifyTokens (openEnded ++ .word "foo" :: openStarted)).result =
        .ok (tokenize "A & ~~~~" ++ .word "foo" :: tokenize "| (A bar) & ~C") ∧
      ((Simplifier.mk 32).simplifyTokens
        (openEnded ++ .word "foo" :: openStarted)).stats.replacements = 1 + 3 := by
  have leftBalanced : Balanced openEnded := by decide +kernel
  have rightBalanced : Balanced openStarted := by decide +kernel
  have enough : (openEnded ++ .word "foo" :: openStarted).length + 1 ≤ 32 := by decide +kernel
  have onLeft : ((Simplifier.mk 32).simplifyTokens openEnded).result =
      .ok (tokenize "A & ~~~~") := by rfl
  have onRight : ((Simplifier.mk 32).simplifyTokens openStarted).result =
      .ok (tokenize "| (A bar) & ~C") := by rfl
  have made : ((Simplifier.mk 32).simplifyTokens openEnded).stats.replacements = 1 ∧
      ((Simplifier.mk 32).simplifyTokens openStarted).stats.replacements = 3 := by
    decide +kernel
  obtain ⟨_, runs⟩ := simplify_around_word openEnded openStarted "foo" leftBalanced rightBalanced
  obtain ⟨left, right, leftSucceeded, rightSucceeded, succeeded, counted⟩ := runs (.mk 32) enough
  cases onLeft.symm.trans leftSucceeded
  cases onRight.symm.trans rightSucceeded
  rw [made.1, made.2] at counted
  exact ⟨leftBalanced, rightBalanced, enough, succeeded, counted⟩

end Simplifier

end BoolSimplify
