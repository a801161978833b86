/-
Runs on renamed tokens.

A change is hidden by a renaming when only words come in the place of others that are
named like them.  This needs words that have no names of their own, and a rule that
writes or takes two runs: as long as there is one run on a side, words keep their order.
The main statement is that nothing else makes a difference to a run.  In the catalog no
side has a second run, and its runs go the same way whatever the words are called.
-/

import BoolSimplify.Proofs.Preservation
import BoolSimplify.Proofs.Renaming
import Mathlib.Data.Set.Function

namespace BoolSimplify

variable (names : Renaming)

/-! ### Words of renamed tokens -/

theorem words_renamed (tokens : List Token) :
    words (names.tokens tokens) = (words tokens).map names.ofWord := by
  induction tokens with
  | nil => rfl
  | cons token rest ih =>
      have same : words [names.token token] = (words [token]).map names.ofWord := by
        cases token with
        | atom name => cases name <;> rfl
        | opening | closing | conj | disj | neg => rfl
        | truth value => rfl
      rw [words_cons token rest, List.map_append, ← ih, ← same]
      exact words_cons (names.token token) (names.tokens rest)

theorem head_eq_of_words_eq (first second : Token) (firstRest secondRest : List Token)
    (sameWords : words (first :: firstRest) = words (second :: secondRest))
    (same : names.token first = names.token second) : first = second := by
  cases first with
  | atom name =>
      cases second with
      | atom other =>
          cases name with
          | letter letter =>
              cases other with
              | letter otherLetter =>
                  simp only [Renaming.token, Symbol.atom.injEq, Name.letter.injEq,
                    EmbeddingLike.apply_eq_iff_eq] at same
                  rw [same]
              | word text => cases same
          | word text =>
              cases other with
              | letter letter => cases same
              | word otherText =>
                  obtain ⟨sameText, _⟩ := List.cons.inj sameWords
                  rw [sameText]
      | opening | closing | conj | disj | neg | truth value => cases name <;> cases same
  | opening | closing | conj | disj | neg | truth value =>
      refine ((names.token_eq_mark second _ ?_).mp same.symm).symm
      intro name isName
      cases isName

theorem eq_of_words_eq (first second : List Token) (sameWords : words first = words second)
    (same : names.tokens first = names.tokens second) : first = second := by
  induction first generalizing second with
  | nil => exact (List.map_eq_nil_iff.mp same.symm).symm
  | cons token rest ih =>
      cases second with
      | nil => cases same
      | cons other otherRest =>
          obtain ⟨sameToken, sameRest⟩ := List.cons.inj same
          obtain rfl := head_eq_of_words_eq names token other rest otherRest sameWords sameToken
          rw [words_cons, words_cons token otherRest, List.append_cancel_left_eq] at sameWords
          rw [ih otherRest sameWords sameRest]

/-! ### Changes that names cannot hide -/

theorem afterPasses_succ (rules : List Rule) (count : Nat) (tokens : List Token) :
    afterPasses rules (count + 1) tokens =
      (runPass rules (afterPasses rules count tokens)).tokens := by
  induction count generalizing tokens with
  | zero => rfl
  | succ count ih => exact ih (runPass rules tokens).tokens

theorem words_afterPasses (rules : List Rule) (count : Nat) (tokens : List Token) :
    words (afterPasses rules count tokens) ⊆ words tokens := by
  induction count with
  | zero => exact List.Subset.refl _
  | succ count ih =>
      rw [afterPasses_succ]
      have onePass := lifts_words_subset.rewrites
        (fun _ _ _ _ replaced => Rule.Replaces.words_subset replaced)
        (runPass_rewrites rules (afterPasses rules count tokens))
      exact List.Subset.trans onePass ih

namespace Renaming

/-- A change is hidden only when words change whose names do not. -/
theorem showsChanges_of_words (rules : List Rule) (budget : Nat) (tokens : List Token)
    (sameWords : ∀ count,
      (words (afterPasses rules (count + 1) tokens)).map names.ofWord =
          (words (afterPasses rules count tokens)).map names.ofWord →
        words (afterPasses rules (count + 1) tokens) = words (afterPasses rules count tokens)) :
    names.ShowsChanges rules budget tokens := by
  intro count _ hidden
  have sameNames := congrArg words hidden
  rw [words_renamed, words_renamed] at sameNames
  exact eq_of_words_eq names _ _ (sameWords count sameNames) hidden

theorem showsChanges_of_injOn {known : List String}
    (distinct : Set.InjOn names.ofWord {text | text ∈ known}) (rules : List Rule) (budget : Nat)
    (tokens : List Token) (tokensKnown : words tokens ⊆ known) :
    names.ShowsChanges rules budget tokens := by
  apply showsChanges_of_words
  intro count sameNames
  have stillKnown (count : Nat) : words (afterPasses rules count tokens) ⊆ known :=
    List.Subset.trans (words_afterPasses rules count tokens) tokensKnown
  have undo (list : List String) (listKnown : list ⊆ known) :
      (list.map names.ofWord).map (Function.invFunOn names.ofWord {text | text ∈ known}) = list := by
    rw [List.map_map]
    refine (List.map_congr_left fun text member => ?_).trans (List.map_id list)
    exact distinct.leftInvOn_invFunOn (listKnown member)
  rw [← undo _ (stillKnown (count + 1)), sameNames, undo _ (stillKnown count)]

/-- Where words keep their order, none can come in the place of another one. -/
theorem showsChanges_of_oneRun (rules : List Rule) (oneRun : ∀ rule ∈ rules, rule.OneRun)
    (budget : Nat) (tokens : List Token) : names.ShowsChanges rules budget tokens := by
  apply showsChanges_of_words
  intro count sameNames
  have sameLength := congrArg List.length sameNames
  rw [List.length_map, List.length_map] at sameLength
  have kept := lifts_words_sublist.rewrites
    (fun rule member _ _ replaced => (oneRun rule member).words_sublist replaced)
    (runPass_rewrites rules (afterPasses rules count tokens))
  rw [← afterPasses_succ] at kept
  exact kept.eq_of_length sameLength

end Renaming

/-! ### Groups -/

theorem closeFrom_renamed (depth : Nat) (tokens : List Token) :
    closeFrom depth (names.tokens tokens) = closeFrom depth tokens := by
  induction tokens generalizing depth with
  | nil => rfl
  | cons token rest ih =>
      have opened (depth : Nat) : closeFrom depth (rest.map names.token) = closeFrom depth rest :=
        ih depth
      rcases token.opening_or_closing_or_plain with rfl | rfl | plain
      · simp only [Renaming.tokens, List.map_cons, Renaming.token, closeFrom, opened]
      · simp only [Renaming.tokens, List.map_cons, Renaming.token, closeFrom, opened]
      · have plainRenamed := (names.token_plain token).trans plain
        rw [Renaming.tokens, List.map_cons, closeFrom_plain plainRenamed, closeFrom_plain plain,
          opened]

theorem isOperand_renamed (tokens : List Token) :
    isOperand (names.tokens tokens) = isOperand tokens := by
  induction tokens with
  | nil => rfl
  | cons token rest ih =>
      cases token with
      | neg => exact ih
      | opening =>
          change (closeFrom 1 (names.tokens rest) == some ((names.tokens rest).length - 1)) =
            (closeFrom 1 rest == some (rest.length - 1))
          rw [closeFrom_renamed, Renaming.tokens, List.length_map]
      | atom name => cases name <;> cases rest <;> rfl
      | closing | conj | disj => cases rest <;> rfl
      | truth value => cases rest <;> rfl

theorem asOperand_renamed (tokens : List Token) :
    asOperand (names.tokens tokens) = names.tokens (asOperand tokens) := by
  unfold asOperand
  rw [isOperand_renamed]
  split
  · rfl
  · simp only [Renaming.tokens, List.map_append, List.map_cons]
    rfl

theorem putBack_renamed (interior around : List Token) :
    (asOperand (names.tokens interior)).reverse ++ names.tokens around =
      names.tokens ((asOperand interior).reverse ++ around) := by
  rw [asOperand_renamed]
  simp only [Renaming.tokens, List.map_append, List.map_reverse]

theorem words_putBack_subset {known : List String} (interior around : List Token)
    (interiorKnown : words interior ⊆ known) (aroundKnown : words around ⊆ known) :
    words ((asOperand interior).reverse ++ around) ⊆ known := by
  rw [words_append, words_reverse, words_asOperand, List.append_subset, List.reverse_subset]
  exact ⟨interiorKnown, aroundKnown⟩

theorem Outcome.renamed_andThen (outcome : Outcome (List Token))
    (next renamedNext : List Token → Stats → Outcome (List Token))
    (later : ∀ value, outcome.result = .ok value →
      renamedNext (names.tokens value) outcome.stats = (next value outcome.stats).renamed names) :
    (outcome.renamed names).andThen renamedNext = (outcome.andThen next).renamed names := by
  obtain ⟨result, stats, events⟩ := outcome
  cases result with
  | ok value =>
      have same := later value rfl
      change (renamedNext (names.tokens value) stats).after (events.map (Event.renamed names)) =
        ((next value stats).after events).renamed names
      rw [same, renamed_after]
  | error failure => rfl

namespace Engine

variable (engine : Engine)

def OpenGroup.renamed (group : OpenGroup) : OpenGroup :=
  ⟨group.position, names.tokens group.around⟩

theorem fixedPoint_renamed_iff (tokens : List Token) (stats : Stats) :
    engine.fixedPoint (names.tokens tokens) stats =
        (engine.fixedPoint tokens stats).renamed names ↔
      names.ShowsChanges engine.rules (engine.maxPasses - stats.passes) tokens :=
  runPasses_renamed_iff names engine.rules (engine.maxPasses - stats.passes) tokens stats

variable {known : List String} (shows : ∀ budget tokens, words tokens ⊆ known →
  names.ShowsChanges engine.rules budget tokens)

include shows

theorem fixedPoint_renamed (collected : List Token) (stats : Stats)
    (collectedKnown : words collected ⊆ known) :
    engine.fixedPoint (names.tokens collected).reverse stats =
      (engine.fixedPoint collected.reverse stats).renamed names := by
  rw [Renaming.tokens, ← List.map_reverse]
  apply (engine.fixedPoint_renamed_iff names collected.reverse stats).mpr
  apply shows
  rwa [words_reverse, List.reverse_subset]

/-- Where all changes show as long as only known words are met, a run goes the same way
on renamed tokens. -/
theorem simplifyFrom_renamed (input tokens collected : List Token) (position : Nat)
    (groups : List OpenGroup) (stats : Stats) (tokensKnown : words tokens ⊆ known)
    (collectedKnown : words collected ⊆ known)
    (groupsKnown : ∀ group ∈ groups, words group.around ⊆ known) :
    engine.simplifyFrom (names.tokens input) position (names.tokens tokens)
        (names.tokens collected) (groups.map (OpenGroup.renamed names)) stats =
      (engine.simplifyFrom input position tokens collected groups stats).renamed names := by
  induction tokens generalizing collected position groups stats with
  | nil =>
      cases groups with
      | nil => exact engine.fixedPoint_renamed names shows collected stats collectedKnown
      | cons group groups => rfl
  | cons token rest ih =>
      rw [words_cons, List.append_subset] at tokensKnown
      obtain ⟨tokenKnown, restKnown⟩ := tokensKnown
      rcases token.opening_or_closing_or_plain with rfl | rfl | plain
      · refine ih [] (position + 1) (⟨position, collected⟩ :: groups) stats restKnown
          (List.nil_subset known) ?_
        intro group member
        rcases List.mem_cons.mp member with rfl | outer
        · exact collectedKnown
        · exact groupsKnown group outer
      · cases groups with
        | nil => rfl
        | cons group groups =>
            have inside := engine.fixedPoint_renamed names shows collected stats collectedKnown
            change ((engine.fixedPoint (names.tokens collected).reverse stats).andThen _) = _
            rw [inside]
            apply Outcome.renamed_andThen
            intro interior reached
            have settled := lifts_words_subset.fixedPoint
              (fun _ _ _ _ replaced => Rule.Replaces.words_subset replaced) _ interior stats reached
            rw [words_reverse, List.subset_reverse] at settled
            have putKnown := words_putBack_subset interior group.around
              (List.Subset.trans settled collectedKnown) (groupsKnown group List.mem_cons_self)
            have later := ih ((asOperand interior).reverse ++ group.around) (position + 1) groups
              (engine.fixedPoint collected.reverse stats).stats.countGroup restKnown putKnown
              (fun outer member => groupsKnown outer (List.mem_cons_of_mem group member))
            rw [Outcome.renamed_after, ← later, ← putBack_renamed]
            rfl
      · have plainRenamed := (names.token_plain token).trans plain
        rw [engine.simplifyFrom_plain _ _ _ _ _ _ _ plain]
        refine (engine.simplifyFrom_plain _ _ _ _ _ _ _ plainRenamed).trans ?_
        refine ih (token :: collected) (position + 1) groups stats restKnown ?_ groupsKnown
        rw [words_cons, List.append_subset]
        exact ⟨tokenKnown, collectedKnown⟩

theorem simplify_renamed (tokens : List Token) (stats : Stats) (tokensKnown : words tokens ⊆ known) :
    engine.simplify (names.tokens tokens) stats = (engine.simplify tokens stats).renamed names :=
  engine.simplifyFrom_renamed names shows tokens tokens [] 0 [] stats tokensKnown
    (List.nil_subset known) nofun

end Engine

/-! ### What names change -/

theorem oneRun_of_catalog : ∀ rule ∈ catalog, rule.OneRun := by
  intro rule member
  have shrinks := shrinks_of_catalog rule member
  exact ⟨shrinks.oneRun, shrinks.sameRuns ▸ shrinks.oneRun⟩

/-- A scan of any rule and a run of the catalog go with renamed tokens as they go with
the tokens.  Bringing tokens to a fixed point of other rules does so as long as no pass
changes only what the renaming hides.  No pass does where different words are named
differently, nor where no side of a rule has a second run. -/
theorem runs_renamed (names : Renaming) :
    (∀ (rule : Rule) (tokens : List Token),
        rule.apply (names.tokens tokens) = (rule.apply tokens).renamed names) ∧
      (∀ (maxPasses : Nat) (tokens : List Token) (stats : Stats),
        Engine.simplify ⟨catalog, maxPasses⟩ (names.tokens tokens) stats =
          (Engine.simplify ⟨catalog, maxPasses⟩ tokens stats).renamed names) ∧
      (∀ (engine : Engine) (tokens : List Token) (stats : Stats),
        engine.fixedPoint (names.tokens tokens) stats =
            (engine.fixedPoint tokens stats).renamed names ↔
          names.ShowsChanges engine.rules (engine.maxPasses - stats.passes) tokens) ∧
      ∀ (engine : Engine) (tokens : List Token) (stats : Stats),
        (Set.InjOn names.ofWord {text | text ∈ words tokens} ∨
          ∀ rule ∈ engine.rules, rule.OneRun) →
        engine.fixedPoint (names.tokens tokens) stats =
            (engine.fixedPoint tokens stats).renamed names ∧
          engine.simplify (names.tokens tokens) stats =
            (engine.simplify tokens stats).renamed names := by
  refine ⟨fun rule => rule.apply_renamed names, ?_, fun engine => engine.fixedPoint_renamed_iff names,
    ?_⟩
  · intro maxPasses tokens stats
    refine Engine.simplify_renamed names ⟨catalog, maxPasses⟩ ?_ tokens stats
      (List.Subset.refl (words tokens))
    exact fun budget list _ => names.showsChanges_of_oneRun catalog oneRun_of_catalog budget list
  · intro engine tokens stats visible
    have shows (budget : Nat) (list : List Token) (listKnown : words list ⊆ words tokens) :
        names.ShowsChanges engine.rules budget list := by
      rcases visible with distinct | oneRun
      · exact names.showsChanges_of_injOn distinct engine.rules budget list listKnown
      · exact names.showsChanges_of_oneRun engine.rules oneRun budget list
    have known := List.Subset.refl (words tokens)
    exact ⟨(engine.fixedPoint_renamed_iff names tokens stats).mpr (shows _ tokens known),
      engine.simplify_renamed names shows tokens stats known⟩

/-- `E (E) => E (E)`, which writes its second run twice and not the first one -/
def lastRunTwice : Rule :=
  .mk .identity [.run, .opening, .run, .closing] [.run, .opening, .run, .closing]

def wordsExchanged : Renaming :=
  ⟨Equiv.swap .a .b, fun text => if text = "foo" then "bar" else "foo"⟩

theorem runs_renamed_exchanged :
    Set.InjOn wordsExchanged.ofWord {text | text ∈ words (tokenize "A foo (B bar)")} ∧
      (Engine.fixedPoint ⟨[lastRunTwice], 20⟩ (tokenize "A foo (B bar)") .zero).result =
        .ok (tokenize "B bar (B bar)") ∧
      (Engine.fixedPoint ⟨[lastRunTwice], 20⟩ (tokenize "B bar (A foo)") .zero).result =
        .ok (tokenize "A foo (A foo)") := by
  have distinct :
      Set.InjOn wordsExchanged.ofWord {text | text ∈ words (tokenize "A foo (B bar)")} := by
    have table : ∀ first ∈ words (tokenize "A foo (B bar)"),
        ∀ second ∈ words (tokenize "A foo (B bar)"),
          wordsExchanged.ofWord first = wordsExchanged.ofWord second → first = second := by
      decide +kernel
    exact fun first firstKnown second secondKnown => table first firstKnown second secondKnown
  have reached : (Engine.fixedPoint ⟨[lastRunTwice], 20⟩ (tokenize "A foo (B bar)") .zero).result =
      .ok (tokenize "B bar (B bar)") := by rfl
  have renamed : wordsExchanged.tokens (tokenize "A foo (B bar)") = tokenize "B bar (A foo)" := by
    decide +kernel
  have renamedReached : wordsExchanged.tokens (tokenize "B bar (B bar)") =
      tokenize "A foo (A foo)" := by
    decide +kernel
  obtain ⟨_, _, _, visible⟩ := runs_renamed wordsExchanged
  obtain ⟨same, _⟩ :=
    visible ⟨[lastRunTwice], 20⟩ (tokenize "A foo (B bar)") .zero (.inl distinct)
  rw [renamed] at same
  refine ⟨distinct, reached, ?_⟩
  rw [same, Outcome.renamed, reached]
  exact congrArg Except.ok renamedReached

def wordsAlike : Renaming :=
  ⟨Equiv.refl Letter, fun _ => "foo"⟩

theorem fixedPoint_renamed_alike :
    (Engine.fixedPoint ⟨[lastRunTwice], 20⟩ (tokenize "foo (bar)") .zero).stats = ⟨2, 2, 0⟩ ∧
      (Engine.fixedPoint ⟨[lastRunTwice], 20⟩ (wordsAlike.tokens (tokenize "foo (bar)"))
        .zero).stats = ⟨1, 1, 0⟩ ∧
      ¬∀ (names : Renaming) (engine : Engine) (tokens : List Token) (stats : Stats),
        engine.fixedPoint (names.tokens tokens) stats =
          (engine.fixedPoint tokens stats).renamed names := by
  have twoPasses : (Engine.fixedPoint ⟨[lastRunTwice], 20⟩ (tokenize "foo (bar)") .zero).stats =
      ⟨2, 2, 0⟩ := by rfl
  have onePass : (Engine.fixedPoint ⟨[lastRunTwice], 20⟩
      (wordsAlike.tokens (tokenize "foo (bar)")) .zero).stats = ⟨1, 1, 0⟩ := by rfl
  refine ⟨twoPasses, onePass, ?_⟩
  intro alike
  have same := alike wordsAlike ⟨[lastRunTwice], 20⟩ (tokenize "foo (bar)") .zero
  have sameStats := congrArg Outcome.stats same
  rw [onePass] at sameStats
  cases sameStats.trans twoPasses

end BoolSimplify
