/-
Rules that a run never uses.

A group is simplified before anything around it is looked at, and put back without its
parentheses when it has become a single operand.  What is left in parentheses is irreducible
on its own, so that a rule for a whole group finds nothing when a rule without the
parentheses could have been used inside.  Only distribution makes groups that nothing has
looked into, and the next pass takes the reducible ones among them at its start.  The main
statement says that seven rules of the catalog never replace anything in a run, so that a
run without them is the same.
-/

import BoolSimplify.Proofs.Log
import BoolSimplify.Proofs.Scans

namespace BoolSimplify

open Element (x y z run)

/-! ### Rules for whole groups -/

def redundantPatterns : List (List Element) :=
  [[.opening, x, .conj, x, .closing],
   [.opening, x, .conj, .neg, x, .closing],
   [.opening, .neg, x, .conj, x, .closing],
   [.opening, x, .disj, .neg, x, .closing],
   [.opening, .neg, x, .disj, x, .closing],
   [.opening, .opening, run, .closing, .closing],
   [.opening, x, .closing]]

def redundantRules : List Rule :=
  catalog.filter fun rule => rule.pattern ∈ redundantPatterns

def reducedCatalog : List Rule := without redundantRules catalog

/-- `X | X => X` -/
def equalDisjuncts : Rule := catalog[3]

/-- `(X | X) => X` is in use although there is a rule for its interior: distribution makes
the groups that it takes. -/
def equalDisjunctsGroup : Rule := catalog[1]

/-- All rules but the one that takes apart what distribution puts into a group. -/
def otherRules : List Rule := without [equalDisjuncts] catalog

theorem Rule.match_enclosed {rule : Rule} {interior : List Element}
    (enclosed : rule.pattern = .opening :: (interior ++ [.closing])) {tokens : List Token}
    {found : Match} (matched : rule.match? tokens = some found) :
    ∃ inner, tokens = .opening :: (inner ++ .closing :: found.rest) ∧
      matchPrefix? interior inner = some ⟨found.bindings, []⟩ ∧
      unmatched inner = unmatched interior := by
  rw [match?, matchPrefix?, enclosed] at matched
  obtain ⟨opened, opens, behind⟩ := Match.extendAll_cons _ _ _ _ matched
  rw [Match.extendAll_append] at behind
  obtain ⟨within, inside, closes⟩ := Option.bind_eq_some_iff.mp behind
  obtain ⟨last, closed, ended⟩ := Match.extendAll_cons _ _ _ _ closes
  cases ended
  cases opens with
  | literal _ _ rest opensGroup restEq =>
      cases opensGroup
      cases closed with
      | literal _ _ after closesGroup withinEq =>
          cases closesGroup
          obtain ⟨inner, innerEq, sameParentheses⟩ :=
            Match.extendAll_unmatched _ within interior inside
          change rest = inner ++ within.rest at innerEq
          change tokens = .opening :: rest at restEq
          rw [withinEq] at innerEq
          refine ⟨inner, by rw [restEq, innerEq], ?_, sameParentheses⟩
          obtain ⟨bindings, withinRest⟩ := within
          change withinRest = .closing :: after at withinEq
          rw [innerEq, withinEq] at inside
          exact (Match.extendAll_push_iff ⟨.empty, inner⟩ interior .closing after rfl bindings
            []).mp inside

/-! ### Groups within a pass -/

/-- What a group holds that is settled, or that distribution has made since. -/
inductive Fresh : List Token → Prop where
  | settled {inner : List Token} (settled : Settled catalog inner) : Fresh inner
  | doubled (letter : Letter) : Fresh [.letter letter, .disj, .letter letter]

theorem irreducible_of_reducts {rules : List Rule} {tokens : List Token}
    (none : ∀ rule ∈ rules, rule.reducts tokens = []) : Irreducible rules tokens := by
  intro rule member before after split
  cases redex : rule.redex? before.getLast? after with
  | none => rfl
  | some found =>
      have reduct := (Rule.Replaces.intro before after found redex).mem_reducts
      rw [split, none rule member] at reduct
      cases reduct

theorem reducts_of_different : ∀ left right : Letter, left ≠ right → ∀ rule ∈ catalog,
    rule.reducts [.letter left, .disj, .letter right] = [] := by
  intro left right
  cases left <;> cases right <;> decide +kernel

theorem reducts_of_equal : ∀ letter : Letter, ∀ rule ∈ otherRules,
    rule.reducts [.letter letter, .disj, .letter letter] = [] := by
  intro letter
  cases letter <;> decide +kernel

theorem catalog_of_otherRules {rule : Rule} (member : rule ∈ otherRules) : rule ∈ catalog := by
  rw [otherRules, without] at member
  exact List.mem_of_mem_filter member

namespace Fresh

theorem disjunction (left right : Letter) : Fresh [.letter left, .disj, .letter right] := by
  by_cases same : left = right
  · rw [same]
    exact .doubled right
  · exact .settled ⟨irreducible_of_reducts (reducts_of_different left right same), rfl⟩

theorem not_operand {inner : List Token} (fresh : Fresh inner) : isOperand inner = false := by
  cases fresh with
  | settled settled => exact settled.2
  | doubled letter => rfl

theorem irreducible {inner : List Token} (fresh : Fresh inner) : Irreducible otherRules inner := by
  cases fresh with
  | settled settled => exact settled.1.mono fun rule member => catalog_of_otherRules member
  | doubled letter => exact irreducible_of_reducts (reducts_of_equal letter)

end Fresh

/-! ### Rules that find nothing -/

def interiorPatterns : List (List Element) :=
  [x] :: [.opening, run, .closing] :: otherRules.map Rule.pattern

theorem redundant_enclosed : ∀ rule ∈ redundantRules, ∃ interior ∈ interiorPatterns,
    rule.pattern = .opening :: (interior ++ [.closing]) ∧ Balanced interior := by
  decide +kernel

theorem isOperand_of_slot {inner : List Token} {bindings : Bindings}
    (matched : matchPrefix? [x] inner = some ⟨bindings, []⟩) : isOperand inner = true := by
  obtain ⟨next, extended, ended⟩ := Match.extendAll_cons _ _ _ _ matched
  cases ended
  cases extended with
  | slot _ letter _ _ innerEq _ =>
      change inner = [.letter letter] at innerEq
      rw [innerEq]
      rfl
  | literal _ _ _ stands _ => cases stands

theorem isOperand_of_group {inner : List Token} {bindings : Bindings}
    (matched : matchPrefix? [.opening, run, .closing] inner = some ⟨bindings, []⟩) :
    isOperand inner = true := by
  have innerEq : inner = bindings.fill [.opening, run, .closing] ++ [] :=
    Match.extendAll_fill _ _ _ matched (by decide)
  have plain (token : Token) (member : token ∈ bindings.run) : token.isParenthesis = false := by
    rcases Match.extendAll_run_mem _ _ _ matched token member with unbound | taken
    · cases unbound
    · exact taken.1
  rw [innerEq, List.append_nil]
  exact isOperand_of_operand (.group bindings.run (balanced_of_plain _ plain))

theorem Fresh.not_match {interior : List Element} (known : interior ∈ interiorPatterns)
    {inner : List Token} (fresh : Fresh inner) {bindings : Bindings} :
    matchPrefix? interior inner ≠ some ⟨bindings, []⟩ := by
  intro matched
  have several := fresh.not_operand
  rcases List.mem_cons.mp known with rfl | known
  · rw [isOperand_of_slot matched] at several
    cases several
  · rcases List.mem_cons.mp known with rfl | known
    · rw [isOperand_of_group matched] at several
      cases several
    · obtain ⟨rule, member, rfl⟩ := List.mem_map.mp known
      have alone : rule.strength.admits none none = true := by
        cases rule.strength <;> rfl
      have redex : rule.redex? none inner = some ⟨bindings, []⟩ :=
        (rule.redex_eq_some_iff none inner _).mpr ⟨matched, alone⟩
      cases (fresh.irreducible rule member [] inner rfl).symm.trans redex

theorem redundant_idle {rule : Rule} (redundant : rule ∈ redundantRules) {tokens : List Token}
    (fresh : EachGroup Fresh tokens) : rule.apply tokens = ⟨tokens, 0⟩ := by
  apply rule.scan_of_no_redexes [] tokens
  intro before after split
  obtain ⟨interior, known, enclosed, balanced⟩ := redundant_enclosed rule redundant
  cases redex : rule.redex? before.getLast? after with
  | none => exact redex
  | some found =>
      obtain ⟨matched, _⟩ := (rule.redex_eq_some_iff _ after found).mp redex
      obtain ⟨inner, afterEq, taken, sameParentheses⟩ := rule.match_enclosed enclosed matched
      rw [afterEq] at split
      have held := fresh before inner found.rest split.symm (sameParentheses.trans balanced)
      exact absurd taken (held.not_match known)

/-! ### Scans of the other rules -/

theorem replacement_groups_of_used : ∀ rule ∈ catalog, rule ∉ redundantRules →
    .opening ∉ rule.replacement ∨
      rule.replacement = [x, .conj, .opening, y, .disj, z, .closing] := by
  decide +kernel

/-- A rule that finds nothing in groups of a kind can only make groups of its own. -/
theorem EachGroup.apply {kind : List Token → Prop} {rule : Rule} (member : rule ∈ catalog)
    (inert : ∀ inner second, kind inner → ¬rule.Replaces inner second)
    (made : .opening ∉ rule.replacement ∨
      rule.replacement = [x, .conj, .opening, y, .disj, z, .closing] ∧
        ∀ left right : Letter, kind [.letter left, .disj, .letter right])
    {tokens : List Token} (each : EachGroup kind tokens) :
    EachGroup kind (rule.apply tokens).tokens := by
  refine (rule.apply_rewrites tokens).preserves (EachGroup kind) ?_ each
  intro same isRule first second replaced held
  rw [List.mem_singleton.mp isRule] at replaced
  have shrinks := shrinks_of_catalog rule member
  obtain ⟨before, after, bindings, written⟩ := replaced.writesOut shrinks.oneRun
  obtain ⟨patternBalanced, replacementBalanced⟩ := balanced_sides rule member
  refine EachGroup.replace written patternBalanced replacementBalanced ?_ ?_ held
  · intro left right step contents
    exact absurd step (inert left right contents)
  · rcases made with noOpening | ⟨distributed, disjunction⟩
    · exact .fill_of_no_opening written.plain noOpening
    · exact .of_distribution disjunction written shrinks.bound distributed

theorem EachGroup.apply_settled {tokens : List Token}
    (settled : EachGroup (Settled catalog) tokens) (rule : Rule) (member : rule ∈ catalog)
    (noOpening : .opening ∉ rule.replacement) :
    EachGroup (Settled catalog) (rule.apply tokens).tokens := by
  apply EachGroup.apply member _ (.inl noOpening) settled
  exact fun inner second holds => holds.1.not_replaces member

theorem EachGroup.apply_fresh {tokens : List Token} (fresh : EachGroup Fresh tokens)
    {rule : Rule} (member : rule ∈ otherRules) :
    (rule ∈ redundantRules → (rule.apply tokens).fired = 0) ∧
      EachGroup Fresh (rule.apply tokens).tokens := by
  by_cases redundant : rule ∈ redundantRules
  · rw [redundant_idle redundant fresh]
    exact ⟨fun _ => rfl, fresh⟩
  · refine ⟨fun isRedundant => absurd isRedundant redundant, ?_⟩
    have inCatalog := catalog_of_otherRules member
    refine EachGroup.apply inCatalog ?_ ?_ fresh
    · exact fun inner second holds => holds.irreducible.not_replaces member
    · rcases replacement_groups_of_used rule inCatalog redundant with noOpening | distributed
      · exact .inl noOpening
      · exact .inr ⟨distributed, Fresh.disjunction⟩

/-! ### Doubled letters -/

/-- Groups that are not settled begin behind the first `place` tokens. -/
def SettledBefore (place : Nat) (tokens : List Token) : Prop :=
  ∀ before inner after, tokens = before ++ .opening :: (inner ++ .closing :: after) →
    Balanced inner → Settled catalog inner ∨ Fresh inner ∧ place ≤ before.length

theorem equalDisjunctsGroup_redex (previous : Option Token) (letter : Letter)
    (after : List Token) :
    ∃ found, equalDisjunctsGroup.redex? previous
      (.opening :: ([.letter letter, .disj, .letter letter] ++ .closing :: after)) =
        some found := by
  cases letter <;> exact ⟨_, rfl⟩

theorem SettledBefore.ended {tokens : List Token} (settled : SettledBefore tokens.length tokens) :
    EachGroup (Settled catalog) tokens := by
  intro before inner after split balanced
  rcases settled before inner after split balanced with holds | ⟨_, behind⟩
  · exact holds
  · rw [split, List.length_append, List.length_cons] at behind
    omega

theorem SettledBefore.pass {written rest : List Token} {token : Token}
    (settled : SettledBefore written.length (written ++ token :: rest))
    (noRedex : equalDisjunctsGroup.redex? written.getLast? (token :: rest) = none) :
    SettledBefore (written ++ [token]).length (written ++ [token] ++ rest) := by
  intro before inner after split balanced
  rw [List.append_assoc, List.singleton_append] at split
  rcases settled before inner after split balanced with holds | ⟨fresh, behind⟩
  · exact .inl holds
  · by_cases here : before.length = written.length
    · obtain ⟨rfl, tail⟩ := List.append_inj split here.symm
      cases fresh with
      | settled holds => exact .inl holds
      | doubled letter =>
          obtain ⟨found, redex⟩ := equalDisjunctsGroup_redex written.getLast? letter after
          rw [← tail, noRedex] at redex
          cases redex
    · refine .inr ⟨fresh, ?_⟩
      rw [List.length_append, List.length_singleton]
      omega

theorem SettledBefore.replace {written tokens : List Token} {found : Match}
    (settled : SettledBefore written.length (written ++ tokens))
    (redex : equalDisjunctsGroup.redex? written.getLast? tokens = some found) :
    SettledBefore (written ++ found.bindings.fill equalDisjunctsGroup.replacement).length
      (written ++ found.bindings.fill equalDisjunctsGroup.replacement ++ found.rest) := by
  have out := Rule.writesOut_of_redex (by decide) written tokens found redex
  intro before inner after split balanced
  rw [List.append_assoc] at split
  cases out.groupOrigin (by decide) (by decide) split balanced with
  | behind between beforeEq firstEq =>
      rcases settled _ inner after firstEq balanced with holds | ⟨fresh, _⟩
      · exact .inl holds
      · refine .inr ⟨fresh, ?_⟩
        simp only [beforeEq, List.length_append]
        omega
  | ahead between later writtenEq firstEq =>
      rcases settled before inner later firstEq balanced with holds | ⟨_, behind⟩
      · exact .inl holds
      · rw [writtenEq, List.length_append, List.length_cons] at behind
        omega
  | around earlier earlierBalanced firstEq replaced =>
      have member : equalDisjunctsGroup ∈ otherRules := by decide
      have fresh : Fresh earlier := by
        rcases settled before earlier after firstEq earlierBalanced with holds | ⟨fresh, _⟩
        · exact .settled holds
        · exact fresh
      exact absurd replaced (fresh.irreducible.not_replaces member)
  | within left right madeEq =>
      have opens : .opening ∈ found.bindings.fill equalDisjunctsGroup.replacement := by
        rw [madeEq]
        exact List.mem_append_right _ List.mem_cons_self
      rw [← List.count_pos_iff, found.bindings.count_opening_fill out.plain] at opens
      cases opens

theorem EachGroup.apply_equalDisjunctsGroup {tokens : List Token}
    (fresh : EachGroup Fresh tokens) :
    EachGroup (Settled catalog) (equalDisjunctsGroup.apply tokens).tokens := by
  have initially : SettledBefore 0 tokens := by
    intro before inner after split balanced
    exact .inr ⟨fresh before inner after split balanced, Nat.zero_le _⟩
  have scanned := equalDisjunctsGroup.scan_keeps
    (fun _ written rest => SettledBefore written.length (written ++ rest))
    (fun _ _ _ _ noRedex settled => settled.pass noRedex)
    (fun _ _ _ _ redex settled => settled.replace redex) 0 [] tokens initially
  rw [List.append_nil] at scanned
  exact scanned.ended

/-! ### Passes -/

theorem passApplications_idle_of_others (rules : List Rule)
    (included : ∀ rule ∈ rules, rule ∈ otherRules) (tokens : List Token)
    (fresh : EachGroup Fresh tokens) :
    Idle redundantRules (passApplications rules tokens) ∧
      EachGroup Fresh (runPass rules tokens).tokens := by
  induction rules generalizing tokens with
  | nil => exact ⟨List.forall_mem_nil _, fresh⟩
  | cons rule rules ih =>
      obtain ⟨member, others⟩ := List.forall_mem_cons.mp included
      obtain ⟨idle, scanned⟩ := fresh.apply_fresh member
      obtain ⟨laterIdle, laterFresh⟩ := ih others _ scanned
      rw [runPass_tokens]
      exact ⟨laterIdle.cons idle, laterFresh⟩

/-- The second rule settles all groups, so that the fourth one finds none to work in. -/
theorem passApplications_idle (tokens : List Token) (fresh : EachGroup Fresh tokens) :
    Idle redundantRules (passApplications catalog tokens) ∧
      EachGroup Fresh (runPass catalog tokens).tokens := by
  have split : catalog = catalog[0] :: equalDisjunctsGroup :: catalog[2] :: equalDisjuncts ::
      catalog.drop 4 := rfl
  have firstMember : catalog[0] ∈ otherRules := by decide
  have unaffected : ∀ rule ∈ catalog.drop 4, rule ∈ otherRules := by decide +kernel
  obtain ⟨firstIdle, first⟩ := fresh.apply_fresh firstMember
  have second := first.apply_equalDisjunctsGroup
  have third := second.apply_settled catalog[2] (by decide) (by decide)
  have fourth := third.apply_settled equalDisjuncts (by decide) (by decide)
  obtain ⟨laterIdle, laterFresh⟩ :=
    passApplications_idle_of_others _ unaffected _ (fourth.mono fun _ => .settled)
  rw [split]
  simp only [runPass_tokens]
  refine ⟨.cons ?_ firstIdle, laterFresh⟩
  exact .cons_other (.cons_other (.cons_other laterIdle (by decide)) (by decide)) (by decide)

theorem passesApplications_idle (budget : Nat) (tokens : List Token)
    (fresh : EachGroup Fresh tokens) :
    Idle redundantRules (passesApplications catalog budget tokens) := by
  induction budget generalizing tokens with
  | zero => exact List.forall_mem_nil _
  | succ budget ih =>
      obtain ⟨idle, reached⟩ := passApplications_idle tokens fresh
      refine Idle.append_iff.mpr ⟨idle, ?_⟩
      split
      · exact List.forall_mem_nil _
      · exact ih _ reached

/-! ### Runs -/

namespace Simplifier

open Engine (Collected OpenGroup)

variable (simplifier : Simplifier)

theorem settled_of_collected {before collected : List Token} {groups : List OpenGroup}
    {stats : Stats} (levels : Collected simplifier.engine before collected groups stats) :
    EachGroup (Settled catalog) collected.reverse := by
  cases levels with
  | outside flattened =>
      rw [List.reverse_reverse]
      exact settled_of_flattens flattened
  | inside around flattened =>
      rw [List.reverse_reverse]
      exact settled_of_flattens flattened

theorem levelApplications_idle {before collected : List Token} {groups : List OpenGroup}
    {stats : Stats} (levels : Collected simplifier.engine before collected groups stats) :
    Idle redundantRules (simplifier.engine.levelApplications collected.reverse stats) :=
  passesApplications_idle _ collected.reverse
    ((simplifier.settled_of_collected levels).mono fun _ => .settled)

theorem applicationsFrom_idle (before tokens collected : List Token) (groups : List OpenGroup)
    (stats : Stats) (levels : Collected simplifier.engine before collected groups stats) :
    Idle redundantRules (simplifier.engine.applicationsFrom tokens collected
      (groups.map OpenGroup.around) stats) := by
  induction tokens generalizing before collected groups stats with
  | nil =>
      cases groups with
      | nil => exact simplifier.levelApplications_idle levels
      | cons group groups => exact List.forall_mem_nil _
  | cons token rest ih =>
      rcases token.opening_or_closing_or_plain with rfl | rfl | plain
      · exact ih _ _ _ _ (.inside levels (.empty stats))
      · cases groups with
        | nil => exact List.forall_mem_nil _
        | cons group groups =>
            rw [List.map_cons, Engine.applicationsFrom, Idle.append_iff]
            refine ⟨simplifier.levelApplications_idle levels, ?_⟩
            cases reached : (simplifier.engine.fixedPoint collected.reverse stats).result with
            | ok interior => exact ih _ _ groups _ (levels.close reached).2
            | error failure => exact List.forall_mem_nil _
      · rw [Engine.applicationsFrom_plain _ _ _ _ _ _ plain]
        exact ih _ _ _ _ (levels.token plain)

end Simplifier

namespace Engine

/-- Seven rules of the catalog replace nothing in any run, on tokens of any kind and with
any budget: none of the scans, which make all replacements that are counted, does so.
Without these rules a run therefore ends with the same tokens or the same failure, with the
same counters and with the same log. -/
theorem simplify_reduced (maxPasses : Nat) (tokens : List Token) (stats : Stats) :
    let applications := applications ⟨catalog, maxPasses⟩ tokens stats
    simplify ⟨reducedCatalog, maxPasses⟩ tokens stats =
        simplify ⟨catalog, maxPasses⟩ tokens stats ∧
      (simplify ⟨catalog, maxPasses⟩ tokens stats).stats.replacements =
        stats.replacements + replacementsOf applications ∧
      Idle redundantRules applications := by
  have levels : Collected ⟨catalog, maxPasses⟩ [] [] [] stats := .outside (.empty stats)
  have idle := (Simplifier.mk maxPasses).applicationsFrom_idle [] tokens [] [] stats levels
  exact ⟨simplifyFrom_without redundantRules catalog maxPasses tokens tokens [] 0 [] stats idle,
    applicationsFrom_replacements ⟨catalog, maxPasses⟩ tokens tokens [] 0 [] stats, idle⟩

example : redundantRules = [0, 5, 6, 9, 10, 45, 46].filterMap (catalog[·]?) ∧
    redundantRules.map Rule.pattern = redundantPatterns ∧ reducedCatalog.length = 40 := by
  decide +kernel

end Engine

end BoolSimplify
