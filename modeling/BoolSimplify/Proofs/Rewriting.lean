/-
Replacements one at a time.

A scan makes all its replacements on the way, and the left neighbour that it asks
for is a token it has written itself.  Each of them is therefore one replacement
in the list as it stands at that moment.  The main statements say that scans,
passes and repeated passes are sequences of such single replacements, and that a
pass without any leaves no match that could be replaced.
-/

import BoolSimplify.Engine
import BoolSimplify.Proofs.Matching

namespace BoolSimplify

/-! ### Single replacements -/

namespace Rule

theorem redex_eq_some_iff (rule : Rule) (previous : Option Token) (tokens : List Token)
    (found : Match) :
    rule.redex? previous tokens = some found ↔
      rule.match? tokens = some found ∧
        rule.strength.admits previous found.rest.head? = true :=
  Option.filter_eq_some_iff

theorem match_rest (rule : Rule) (tokens : List Token) (found : Match)
    (matched : rule.match? tokens = some found) :
    ∃ token consumed, tokens = token :: (consumed ++ found.rest) := by
  obtain ⟨consumed, tokensEq, _⟩ := Match.extendAll_unmatched _ found rule.pattern matched
  have taken := Match.extendAll_length_le _ found rule.pattern matched
  have nonempty := List.length_pos_iff.mpr rule.pattern_ne_nil
  change tokens = consumed ++ found.rest at tokensEq
  change found.rest.length + rule.pattern.length ≤ tokens.length at taken
  cases consumed with
  | nil =>
      rw [tokensEq, List.nil_append] at taken
      omega
  | cons token consumed => exact ⟨token, consumed, tokensEq⟩

theorem match_rest_lt (rule : Rule) (tokens : List Token) (found : Match)
    (matched : rule.match? tokens = some found) : found.rest.length < tokens.length := by
  obtain ⟨token, consumed, tokensEq⟩ := rule.match_rest tokens found matched
  rw [tokensEq, List.length_cons, List.length_append]
  omega

theorem match_run (rule : Rule) (tokens : List Token) (found : Match)
    (matched : rule.match? tokens = some found) (token : Token)
    (member : token ∈ found.bindings.run) : token.isParenthesis = false ∧ token ∈ tokens := by
  rcases Match.extendAll_run_mem _ found rule.pattern matched token member with unbound | taken
  · cases unbound
  · exact taken

theorem redex_nil (rule : Rule) (previous : Option Token) : rule.redex? previous [] = none := by
  cases found : rule.redex? previous [] with
  | none => rfl
  | some result =>
      obtain ⟨matched, _⟩ := (rule.redex_eq_some_iff previous [] result).mp found
      obtain ⟨token, consumed, empty⟩ := rule.match_rest [] result matched
      cases empty

/-- One replacement of a match that may be replaced where it stands. -/
inductive Replaces (rule : Rule) : List Token → List Token → Prop where
  | intro (before tokens : List Token) (found : Match)
      (redex : rule.redex? before.getLast? tokens = some found) :
      Replaces rule (before ++ tokens)
        (before ++ (found.bindings.fill rule.replacement ++ found.rest))

theorem Replaces.unmatched_eq {rule : Rule} {first second : List Token}
    (replaced : rule.Replaces first second)
    (same : unmatched rule.pattern = unmatched rule.replacement) :
    unmatched first = unmatched second := by
  cases replaced with
  | intro before tokens found redex =>
      obtain ⟨matched, _⟩ := (rule.redex_eq_some_iff _ tokens found).mp redex
      obtain ⟨consumed, tokensEq, sameConsumed⟩ :=
        Match.extendAll_unmatched _ found rule.pattern matched
      have plain := fun token member => (rule.match_run tokens found matched token member).1
      change tokens = consumed ++ found.rest at tokensEq
      rw [tokensEq]
      apply Balanced.unmatched_replace
      rw [sameConsumed, same, found.bindings.unmatched_fill plain]

/-- One replacement written out: both sides of the rule, filled in alike, between the
same tokens. -/
structure WritesOut (rule : Rule) (first second before after : List Token)
    (bindings : Bindings) : Prop where
  first_eq : first = before ++ (bindings.fill rule.pattern ++ after)
  second_eq : second = before ++ (bindings.fill rule.replacement ++ after)
  redex : rule.redex? before.getLast? (bindings.fill rule.pattern ++ after) =
    some ⟨bindings, after⟩
  bound : ∀ slot, .atom (.slot slot) ∈ rule.pattern →
    ∃ letter, bindings.letters slot = some letter
  plain : ∀ token ∈ bindings.run, token.isParenthesis = false
  taken : ∀ token ∈ bindings.run, token ∈ first

theorem writesOut_of_redex {rule : Rule} (oneRun : rule.pattern.count Element.run ≤ 1)
    (before tokens : List Token) (found : Match)
    (redex : rule.redex? before.getLast? tokens = some found) :
    rule.WritesOut (before ++ tokens)
      (before ++ (found.bindings.fill rule.replacement ++ found.rest)) before found.rest
      found.bindings := by
  obtain ⟨matched, _⟩ := (rule.redex_eq_some_iff _ tokens found).mp redex
  have consumed : tokens = found.bindings.fill rule.pattern ++ found.rest :=
    Match.extendAll_fill _ found rule.pattern matched oneRun
  refine ⟨?_, rfl, ?_, ?_, ?_, ?_⟩
  · rw [← consumed]
  · rw [← consumed, redex]
  · exact Match.extendAll_binds _ found rule.pattern matched
  · exact fun token member => (rule.match_run tokens found matched token member).1
  · intro token member
    exact List.mem_append_right before (rule.match_run tokens found matched token member).2

theorem Replaces.writesOut {rule : Rule} {first second : List Token}
    (replaced : rule.Replaces first second) (oneRun : rule.pattern.count Element.run ≤ 1) :
    ∃ before after bindings, rule.WritesOut first second before after bindings := by
  cases replaced with
  | intro before tokens found redex =>
      exact ⟨before, found.rest, found.bindings, writesOut_of_redex oneRun before tokens found redex⟩

namespace WritesOut

variable {rule : Rule} {first second before after : List Token} {bindings : Bindings}
  (written : rule.WritesOut first second before after bindings)

include written

theorem admitted : rule.strength.admits before.getLast? after.head? = true :=
  ((rule.redex_eq_some_iff _ _ _).mp written.redex).2

end WritesOut

end Rule

/-- `count` replacements of `rules`, one after the other. -/
inductive Rewrites (rules : List Rule) : (count : Nat) → List Token → List Token → Prop where
  | refl (tokens : List Token) : Rewrites rules 0 tokens tokens
  | step {rule : Rule} {count : Nat} {first second third : List Token}
      (member : rule ∈ rules) (replaced : rule.Replaces first second)
      (later : Rewrites rules count second third) : Rewrites rules (count + 1) first third

namespace Rewrites

variable {rules : List Rule}

theorem eq_of_zero {first last : List Token} (rewritten : Rewrites rules 0 first last) :
    last = first := by
  cases rewritten
  rfl

theorem trans {left right : Nat} {first second third : List Token}
    (earlier : Rewrites rules left first second) (later : Rewrites rules right second third) :
    Rewrites rules (left + right) first third := by
  induction earlier with
  | refl tokens => rwa [Nat.zero_add]
  | step member replaced _ ih =>
      rw [Nat.add_right_comm]
      exact .step member replaced (ih later)

theorem mono {others : List Rule} {count : Nat} {first last : List Token}
    (included : ∀ rule ∈ rules, rule ∈ others) (rewritten : Rewrites rules count first last) :
    Rewrites others count first last := by
  induction rewritten with
  | refl tokens => exact .refl tokens
  | step member replaced _ ih => exact .step (included _ member) replaced ih

theorem preserves {count : Nat} {first last : List Token}
    (rewritten : Rewrites rules count first last) (Kept : List Token → Prop)
    (kept : ∀ rule ∈ rules, ∀ before after, rule.Replaces before after → Kept before → Kept after)
    (initially : Kept first) : Kept last := by
  induction rewritten with
  | refl tokens => exact initially
  | step member replaced _ ih => exact ih (kept _ member _ _ replaced initially)

end Rewrites

/-- No rule has a match that may be replaced. -/
def Irreducible (rules : List Rule) (tokens : List Token) : Prop :=
  ∀ rule ∈ rules, ∀ before after, before ++ after = tokens →
    rule.redex? before.getLast? after = none

theorem Irreducible.mono {rules others : List Rule} {tokens : List Token}
    (included : ∀ rule ∈ others, rule ∈ rules) (irreducible : Irreducible rules tokens) :
    Irreducible others tokens :=
  fun rule member => irreducible rule (included rule member)

/-! ### Scans -/

namespace Rule

theorem scan_skip (rule : Rule) (previous : Option Token) (skip : Nat) (tokens : List Token) :
    rule.scan previous skip tokens = rule.scan previous 0 (tokens.drop skip) := by
  induction tokens generalizing skip with
  | nil => rw [List.drop_nil]; cases skip <;> rfl
  | cons token rest ih =>
      cases skip with
      | zero => rfl
      | succ skip => exact ih skip

theorem scan_of_redex (rule : Rule) (previous : Option Token) (tokens : List Token)
    (found : Match) (redex : rule.redex? previous tokens = some found) :
    rule.scan previous 0 tokens =
      let written := found.bindings.fill rule.replacement
      let later := rule.scan (written.getLast?.or previous) 0 found.rest
      ⟨written ++ later.tokens, later.fired + 1⟩ := by
  obtain ⟨matched, _⟩ := (rule.redex_eq_some_iff previous tokens found).mp redex
  obtain ⟨token, consumed, rfl⟩ := rule.match_rest tokens found matched
  have behind : (consumed ++ found.rest).drop
      ((consumed ++ found.rest).length - found.rest.length) = found.rest := by
    rw [List.length_append, Nat.add_sub_cancel, List.drop_left]
  rw [scan, redex]
  simp only [scan_skip rule _ (_ - _), behind]

theorem scan_of_no_redex (rule : Rule) (previous : Option Token) (token : Token)
    (rest : List Token) (noRedex : rule.redex? previous (token :: rest) = none) :
    rule.scan previous 0 (token :: rest) =
      let later := rule.scan (some token) 0 rest
      ⟨token :: later.tokens, later.fired⟩ := by
  rw [scan, noRedex]

/-- A scan goes on behind the match that it replaces, or behind the token that it copies.
The rest behind a match is shorter, but not a tail of the list. -/
theorem scan_induct (rule : Rule) {motive : Option Token → List Token → Prop}
    (ended : ∀ previous, motive previous [])
    (passed : ∀ previous token rest, rule.redex? previous (token :: rest) = none →
      motive (some token) rest → motive previous (token :: rest))
    (replaced : ∀ previous tokens found, rule.redex? previous tokens = some found →
      motive ((found.bindings.fill rule.replacement).getLast?.or previous) found.rest →
        motive previous tokens)
    (previous : Option Token) (tokens : List Token) : motive previous tokens := by
  induction remaining : tokens.length using Nat.strongRecOn generalizing previous tokens with
  | ind size ih =>
      cases redex : rule.redex? previous tokens with
      | some found =>
          obtain ⟨matched, _⟩ := (rule.redex_eq_some_iff _ tokens found).mp redex
          have shorter := rule.match_rest_lt tokens found matched
          exact replaced previous tokens found redex (ih _ (remaining ▸ shorter) _ found.rest rfl)
      | none =>
          cases tokens with
          | nil => exact ended previous
          | cons token rest =>
              have shorter : rest.length < size := remaining ▸ Nat.lt_succ_self _
              exact passed previous token rest redex (ih _ shorter _ rest rfl)

/-- A scan keeps what it keeps where it passes a token over and where it replaces a match.
It is told how many replacements were made, and what is written and what is left. -/
theorem scan_keeps (rule : Rule) (Kept : Nat → List Token → List Token → Prop)
    (passed : ∀ fired written token rest,
      rule.redex? written.getLast? (token :: rest) = none →
        Kept fired written (token :: rest) → Kept fired (written ++ [token]) rest)
    (replaced : ∀ fired written tokens found, rule.redex? written.getLast? tokens = some found →
      Kept fired written tokens →
        Kept (fired + 1) (written ++ found.bindings.fill rule.replacement) found.rest)
    (fired : Nat) (written tokens : List Token) (initially : Kept fired written tokens) :
    Kept (fired + (rule.scan written.getLast? 0 tokens).fired)
      (written ++ (rule.scan written.getLast? 0 tokens).tokens) [] := by
  generalize isLast : written.getLast? = previous
  induction previous, tokens using rule.scan_induct generalizing fired written with
  | ended previous => simpa only [scan, List.append_nil, Nat.add_zero] using initially
  | passed previous token rest noRedex ih =>
      subst isLast
      have later := ih fired (written ++ [token]) (passed fired written token rest noRedex initially)
        List.getLast?_concat
      rw [rule.scan_of_no_redex _ token rest noRedex]
      simpa only [List.append_assoc, List.singleton_append] using later
  | replaced previous tokens found redex ih =>
      subst isLast
      have later := ih (fired + 1) _ (replaced fired written tokens found redex initially)
        List.getLast?_append
      rw [Nat.add_right_comm] at later
      rw [rule.scan_of_redex _ tokens found redex, ← List.append_assoc]
      exact later

theorem scan_rewrites (rule : Rule) (written tokens : List Token) :
    Rewrites [rule] (rule.scan written.getLast? 0 tokens).fired (written ++ tokens)
      (written ++ (rule.scan written.getLast? 0 tokens).tokens) := by
  have whole : Rewrites [rule] (0 + (rule.scan written.getLast? 0 tokens).fired)
      (written ++ tokens) (written ++ (rule.scan written.getLast? 0 tokens).tokens ++ []) := by
    apply rule.scan_keeps fun fired front rest =>
      Rewrites [rule] fired (written ++ tokens) (front ++ rest)
    · intro fired front token rest _ rewritten
      rwa [List.append_assoc, List.singleton_append]
    · intro fired front rest found redex rewritten
      rw [List.append_assoc]
      exact rewritten.trans (.step List.mem_cons_self (.intro front rest found redex) (.refl _))
    · exact .refl _
  rwa [Nat.zero_add, List.append_nil] at whole

theorem apply_rewrites (rule : Rule) (tokens : List Token) :
    Rewrites [rule] (rule.apply tokens).fired tokens (rule.apply tokens).tokens :=
  rule.scan_rewrites [] tokens

theorem apply_of_idle (rule : Rule) (tokens : List Token)
    (idle : (rule.apply tokens).fired = 0) : rule.apply tokens = ⟨tokens, 0⟩ := by
  have rewritten := rule.apply_rewrites tokens
  rw [idle] at rewritten
  calc
    rule.apply tokens = ⟨(rule.apply tokens).tokens, (rule.apply tokens).fired⟩ := rfl
    _ = ⟨tokens, 0⟩ := by rw [rewritten.eq_of_zero, idle]

theorem no_redex_of_scan (rule : Rule) (written tokens : List Token)
    (idle : (rule.scan written.getLast? 0 tokens).fired = 0) (before after : List Token)
    (split : before ++ after = tokens) : rule.redex? (written ++ before).getLast? after = none := by
  induction tokens generalizing written before with
  | nil =>
      obtain ⟨rfl, rfl⟩ := List.append_eq_nil_iff.mp split
      exact rule.redex_nil _
  | cons token rest ih =>
      cases redex : rule.redex? written.getLast? (token :: rest) with
      | some found =>
          rw [rule.scan_of_redex _ _ found redex] at idle
          cases idle
      | none =>
          cases before with
          | nil =>
              rw [List.append_nil]
              rw [List.nil_append] at split
              rw [split]
              exact redex
          | cons first before =>
              obtain ⟨rfl, splitRest⟩ := List.cons.inj split
              rw [rule.scan_of_no_redex _ _ rest redex] at idle
              have later := ih (written ++ [first])
                (by rw [List.getLast?_concat]; exact idle) before splitRest
              rwa [List.append_assoc] at later

theorem scan_of_no_redexes (rule : Rule) (written tokens : List Token)
    (noRedex : ∀ before after, before ++ after = tokens →
      rule.redex? (written ++ before).getLast? after = none) :
    rule.scan written.getLast? 0 tokens = ⟨tokens, 0⟩ := by
  induction tokens generalizing written with
  | nil => rfl
  | cons token rest ih =>
      have here := noRedex [] (token :: rest) rfl
      rw [List.append_nil] at here
      have later := ih (written ++ [token]) (by
        intro before after split
        have there := noRedex (token :: before) after (congrArg (List.cons token) split)
        rwa [List.append_assoc])
      rw [List.getLast?_concat] at later
      rw [rule.scan_of_no_redex _ token rest here, later]

end Rule

/-! ### Passes -/

theorem runPass_tokens (rule : Rule) (rules : List Rule) (tokens : List Token) :
    (runPass (rule :: rules) tokens).tokens =
      (runPass rules (rule.apply tokens).tokens).tokens := by
  rw [runPass]
  split <;> rfl

theorem runPass_replacements (rule : Rule) (rules : List Rule) (tokens : List Token) :
    (runPass (rule :: rules) tokens).replacements =
      (rule.apply tokens).fired + (runPass rules (rule.apply tokens).tokens).replacements := by
  rw [runPass]
  split
  · rename_i idle
    rw [idle, Nat.zero_add]
  · rfl

theorem runPass_rewrites (rules : List Rule) (tokens : List Token) :
    Rewrites rules (runPass rules tokens).replacements tokens (runPass rules tokens).tokens := by
  induction rules generalizing tokens with
  | nil => exact .refl tokens
  | cons rule rules ih =>
      have scanned : Rewrites (rule :: rules) (rule.apply tokens).fired tokens
          (rule.apply tokens).tokens :=
        (rule.apply_rewrites tokens).mono (by
          intro other member
          cases List.mem_singleton.mp member
          exact List.mem_cons_self)
      have later := (ih (rule.apply tokens).tokens).mono
        (fun other member => List.mem_cons_of_mem rule member)
      rw [runPass_tokens, runPass_replacements]
      exact scanned.trans later

theorem runPass_of_idle (rules : List Rule) (tokens : List Token)
    (idle : (runPass rules tokens).replacements = 0) : (runPass rules tokens).tokens = tokens := by
  have rewritten := runPass_rewrites rules tokens
  rw [idle] at rewritten
  exact rewritten.eq_of_zero

theorem irreducible_of_runPass (rules : List Rule) (tokens : List Token)
    (idle : (runPass rules tokens).replacements = 0) : Irreducible rules tokens := by
  induction rules with
  | nil => exact fun rule member => absurd member List.not_mem_nil
  | cons rule rules ih =>
      rw [runPass_replacements] at idle
      obtain ⟨scanIdle, laterIdle⟩ := Nat.add_eq_zero_iff.mp idle
      rw [rule.apply_of_idle tokens scanIdle] at laterIdle
      intro other member before after split
      rcases List.mem_cons.mp member with rfl | inRules
      · exact other.no_redex_of_scan [] tokens scanIdle before after split
      · exact ih laterIdle other inRules before after split

theorem runPass_of_irreducible (rules : List Rule) (tokens : List Token)
    (irreducible : Irreducible rules tokens) : runPass rules tokens = ⟨tokens, []⟩ := by
  induction rules with
  | nil => rfl
  | cons rule rules ih =>
      have copied : rule.apply tokens = ⟨tokens, 0⟩ :=
        rule.scan_of_no_redexes [] tokens (irreducible rule List.mem_cons_self)
      rw [runPass, copied]
      exact ih (fun other member => irreducible other (List.mem_cons_of_mem rule member))

/-! ### Repeated passes -/

theorem Stats.zero_passes : Stats.zero.passes = 0 := rfl

theorem Stats.countPass_passes (stats : Stats) (replacements : Nat) :
    (stats.countPass replacements).passes = stats.passes + 1 := rfl

theorem Stats.countGroup_passes (stats : Stats) : stats.countGroup.passes = stats.passes := rfl

/-- What is known when repeated passes have come to an end without failure. -/
structure Settles (rules : List Rule) (tokens reached : List Token) (before after : Stats) : Prop where
  passes_lt : before.passes < after.passes
  groups_eq : after.groups = before.groups
  rewrites : ∃ count, after.replacements = before.replacements + count ∧
    Rewrites rules count tokens reached
  stable : (runPass rules reached).tokens = reached

theorem runPasses_settles (rules : List Rule) (budget : Nat) (tokens reached : List Token)
    (stats : Stats) (succeeded : (runPasses rules budget tokens stats).result = .ok reached) :
    Settles rules tokens reached stats (runPasses rules budget tokens stats).stats := by
  induction budget generalizing tokens stats with
  | zero => cases succeeded
  | succ budget ih =>
      by_cases same : (runPass rules tokens).tokens = tokens
      · simp only [runPasses, if_pos same] at succeeded ⊢
        have counted := runPass_rewrites rules tokens
        rw [same] at counted
        cases succeeded
        exact ⟨Nat.lt_succ_self _, rfl, ⟨_, rfl, counted⟩, same⟩
      · simp only [runPasses, if_neg same, Outcome.after] at succeeded ⊢
        have later := ih _ _ succeeded
        obtain ⟨count, replacementsEq, rewritten⟩ := later.rewrites
        refine ⟨Nat.lt_trans (Nat.lt_succ_self _) later.passes_lt, later.groups_eq, ?_, later.stable⟩
        refine ⟨_, ?_, (runPass_rewrites rules tokens).trans rewritten⟩
        rw [replacementsEq, Stats.countPass, Nat.add_assoc]

theorem Engine.fixedPoint_settles (engine : Engine) (tokens reached : List Token) (stats : Stats)
    (succeeded : (engine.fixedPoint tokens stats).result = .ok reached) :
    Settles engine.rules tokens reached stats (engine.fixedPoint tokens stats).stats :=
  runPasses_settles engine.rules _ tokens reached stats succeeded

theorem runPasses_passes_le (rules : List Rule) (budget : Nat) (tokens : List Token)
    (stats : Stats) :
    (runPasses rules budget tokens stats).stats.passes ≤ stats.passes + budget := by
  induction budget generalizing tokens stats with
  | zero => exact Nat.le_refl _
  | succ budget ih =>
      by_cases same : (runPass rules tokens).tokens = tokens
      · simp only [runPasses, if_pos same, Stats.countPass]
        omega
      · simp only [runPasses, if_neg same, Outcome.after]
        have later := ih (runPass rules tokens).tokens
          (stats.countPass (runPass rules tokens).replacements)
        rw [Stats.countPass_passes] at later
        omega

theorem runPasses_of_irreducible (rules : List Rule) (budget : Nat) (tokens : List Token)
    (stats : Stats) (irreducible : Irreducible rules tokens) :
    (runPasses rules (budget + 1) tokens stats).result = .ok tokens ∧
      (runPasses rules (budget + 1) tokens stats).stats = stats.countPass 0 := by
  rw [runPasses, runPass_of_irreducible rules tokens irreducible]
  simp only [if_true]
  exact ⟨trivial, rfl⟩

/-! ### Rules that decrease a measure -/

def Decreases (measure : List Token → Nat) (rules : List Rule) : Prop :=
  ∀ rule ∈ rules, ∀ first second, rule.Replaces first second → measure second < measure first

namespace Decreases

variable {measure : List Token → Nat} {rules : List Rule}

theorem rewrites (decreases : Decreases measure rules) {count : Nat} {first last : List Token}
    (rewritten : Rewrites rules count first last) : measure last + count ≤ measure first := by
  induction rewritten with
  | refl tokens => exact Nat.le_refl _
  | step member replaced _ ih =>
      have smaller := decreases _ member _ _ replaced
      omega

/-- When a whole pass leaves the tokens as they are, nothing may be replaced in them. -/
theorem irreducible_of_stable (decreases : Decreases measure rules) (tokens : List Token)
    (stable : (runPass rules tokens).tokens = tokens) : Irreducible rules tokens := by
  have counted := decreases.rewrites (runPass_rewrites rules tokens)
  rw [stable] at counted
  exact irreducible_of_runPass rules tokens (by omega)

theorem runPasses_converges (decreases : Decreases measure rules) (budget : Nat)
    (tokens : List Token) (stats : Stats) (enough : measure tokens < budget) :
    ∃ reached, (runPasses rules budget tokens stats).result = .ok reached ∧
      (runPasses rules budget tokens stats).stats.passes + measure reached ≤
        stats.passes + measure tokens + 1 := by
  induction budget generalizing tokens stats with
  | zero => cases enough
  | succ budget ih =>
      by_cases same : (runPass rules tokens).tokens = tokens
      · refine ⟨tokens, ?_, ?_⟩
        · simp only [runPasses, if_pos same]
        · simp only [runPasses, if_pos same, Stats.countPass]
          omega
      · have counted := decreases.rewrites (runPass_rewrites rules tokens)
        have someReplaced := mt (runPass_of_idle rules tokens) same
        obtain ⟨reached, succeeded, bounded⟩ := ih (runPass rules tokens).tokens
          (stats.countPass (runPass rules tokens).replacements) (by omega)
        simp only [runPasses, if_neg same, Outcome.after]
        refine ⟨reached, succeeded, ?_⟩
        rw [Stats.countPass_passes] at bounded
        omega

end Decreases

end BoolSimplify
