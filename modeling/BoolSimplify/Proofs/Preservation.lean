/-
What simplifying the text of an expression keeps.

No rule of the catalog brings atoms of its own, and none drops or doubles a word.  The
result of a run is therefore legible when its tokens were read from a text, and its
normal layout reads back as the tokens that the engine found.  Together with the
soundness of the catalog this gives the value of the simplified text.
-/

import BoolSimplify.Proofs.Catalog
import BoolSimplify.Proofs.Layout
import BoolSimplify.Simplifier

namespace BoolSimplify

/-! ### Atoms -/

theorem Rule.WritesOut.atom_mem {rule : Rule} {first second before after : List Token}
    {bindings : Bindings} (written : rule.WritesOut first second before after bindings)
    (bound : rule.SlotsBound) (name : Name) (member : .atom name ∈ second) :
    .atom name ∈ first := by
  rw [written.second_eq] at member
  rcases List.mem_append.mp member with inBefore | behind
  · rw [written.first_eq]
    exact List.mem_append_left _ inBefore
  · rcases List.mem_append.mp behind with inFill | inAfter
    · obtain ⟨placeholder, occurs, inImage⟩ :=
        (bindings.atom_mem_fill rule.replacement name).mp inFill
      cases placeholder with
      | run => exact written.taken _ inImage
      | slot slot =>
          have inPattern := (bindings.atom_mem_fill rule.pattern name).mpr
            ⟨.slot slot, bound slot occurs, inImage⟩
          rw [written.first_eq]
          exact List.mem_append_right _ (List.mem_append_left _ inPattern)
    · rw [written.first_eq]
      exact List.mem_append_right _ (List.mem_append_right _ inAfter)

theorem atom_mem_asOperand (tokens : List Token) (name : Name) :
    .atom name ∈ asOperand tokens ↔ .atom name ∈ tokens := by
  unfold asOperand
  split
  · rfl
  · simp only [List.cons_append, List.mem_cons, List.mem_append, List.not_mem_nil, or_false,
      reduceCtorEq, false_or]

theorem lifts_atoms : Lifts fun first second => ∀ name, .atom name ∈ second → .atom name ∈ first where
  refl tokens name member := member
  trans earlier later name member := earlier name (later name member)
  append left right name member :=
    List.mem_append.mpr ((List.mem_append.mp member).imp (left name) (right name))
  asOperand tokens name member := by
    have inside := (atom_mem_asOperand tokens name).mp member
    exact List.mem_append_left _ (List.mem_cons_of_mem _ inside)

theorem Rule.Shrinks.atom_mem {rule : Rule} (shrinks : rule.Shrinks) {first second : List Token}
    (replaced : rule.Replaces first second) (name : Name) (member : .atom name ∈ second) :
    .atom name ∈ first := by
  obtain ⟨before, after, bindings, written⟩ := replaced.writesOut shrinks.oneRun
  exact written.atom_mem shrinks.bound name member

theorem Engine.atom_mem_of_simplify {engine : Engine}
    (shrinks : ∀ rule ∈ engine.rules, rule.Shrinks) (tokens result : List Token) (stats : Stats)
    (succeeded : (engine.simplify tokens stats).result = .ok result) (name : Name)
    (member : .atom name ∈ result) : .atom name ∈ tokens :=
  lifts_atoms.simplify (fun rule inRules _ _ replaced => (shrinks rule inRules).atom_mem replaced)
    tokens result stats succeeded name member

/-! ### Words -/

def Token.word? : Token → Option String
  | .word text => some text
  | _ => none

/-- The words of a list of tokens, in their order and each as often as it occurs. -/
def words (tokens : List Token) : List String :=
  tokens.filterMap Token.word?

theorem words_append (left right : List Token) : words (left ++ right) = words left ++ words right :=
  List.filterMap_append

theorem words_cons (token : Token) (rest : List Token) :
    words (token :: rest) = words [token] ++ words rest :=
  words_append [token] rest

theorem words_reverse (tokens : List Token) : words tokens.reverse = (words tokens).reverse :=
  List.filterMap_reverse

theorem mem_words (tokens : List Token) (text : String) :
    text ∈ words tokens ↔ .word text ∈ tokens := by
  unfold words
  rw [List.mem_filterMap]
  constructor
  · rintro ⟨token, member, isWord⟩
    unfold Token.word? at isWord
    split at isWord
    · cases isWord
      exact member
    · cases isWord
  · exact fun member => ⟨.word text, member, rfl⟩

theorem words_asOperand (tokens : List Token) : words (asOperand tokens) = words tokens := by
  unfold asOperand
  split
  · rfl
  · rw [words_append]
    exact List.append_nil _

theorem Bindings.words_fill (bindings : Bindings) (elements : List Element) :
    words (bindings.fill elements) =
      (List.replicate (elements.count Element.run) (words bindings.run)).flatten := by
  induction elements with
  | nil => rfl
  | cons element elements ih =>
      rw [fill_cons, words_append, ih]
      by_cases isRun : element = Element.run
      · subst isRun
        rw [List.count_cons_self, List.replicate_succ, List.flatten_cons]
        rfl
      · have noWords : words (element.expand bindings.image) = [] := by
          cases element with
          | atom placeholder =>
              cases placeholder with
              | run => exact absurd rfl isRun
              | slot slot =>
                  rw [Symbol.expand, image]
                  cases bindings.letters slot with
                  | none => rfl
                  | some letter => rfl
          | opening => rfl
          | closing => rfl
          | conj => rfl
          | disj => rfl
          | neg => rfl
          | truth value => rfl
        rw [List.count_cons_of_ne isRun, noWords, List.nil_append]

theorem Rule.Shrinks.words_eq {rule : Rule} (shrinks : rule.Shrinks) {first second : List Token}
    (replaced : rule.Replaces first second) : words second = words first := by
  obtain ⟨before, after, bindings, written⟩ := replaced.writesOut shrinks.oneRun
  rw [written.first_eq, written.second_eq]
  simp only [words_append, Bindings.words_fill, shrinks.sameRuns]

/-- No rule brings words, not even one that writes a run more than once. -/
theorem Rule.Replaces.words_subset {rule : Rule} {first second : List Token}
    (replaced : rule.Replaces first second) : words second ⊆ words first := by
  cases replaced with
  | intro before tokens found redex =>
      obtain ⟨matched, _⟩ := (rule.redex_eq_some_iff _ tokens found).mp redex
      obtain ⟨token, consumed, tokensEq⟩ := rule.match_rest tokens found matched
      intro text member
      rw [words_append, words_append] at member
      rw [words_append]
      rcases List.mem_append.mp member with inBefore | behind
      · exact List.mem_append_left _ inBefore
      · refine List.mem_append_right _ ((mem_words tokens text).mpr ?_)
        rcases List.mem_append.mp behind with inFill | inRest
        · rw [Bindings.words_fill] at inFill
          obtain ⟨copy, inCopies, inCopy⟩ := List.mem_flatten.mp inFill
          rw [List.eq_of_mem_replicate inCopies] at inCopy
          exact (rule.match_run tokens found matched _ ((mem_words _ text).mp inCopy)).2
        · rw [tokensEq]
          exact List.mem_cons_of_mem _ (List.mem_append_right _ ((mem_words _ text).mp inRest))

/-- Neither side has a second run. -/
def Rule.OneRun (rule : Rule) : Prop :=
  rule.pattern.count Element.run ≤ 1 ∧ rule.replacement.count Element.run ≤ 1

theorem Rule.OneRun.words_sublist {rule : Rule} (oneRun : rule.OneRun)
    {first second : List Token} (replaced : rule.Replaces first second) :
    (words second).Sublist (words first) := by
  obtain ⟨before, after, bindings, written⟩ := replaced.writesOut oneRun.1
  have filled : (words (bindings.fill rule.replacement)).Sublist
      (words (bindings.fill rule.pattern)) := by
    by_cases inPattern : Element.run ∈ rule.pattern
    · have once : rule.pattern.count Element.run = 1 :=
        Nat.le_antisymm oneRun.1 (List.count_pos_iff.mpr inPattern)
      rcases Nat.le_one_iff_eq_zero_or_eq_one.mp oneRun.2 with dropped | kept
      · have noWords : words (bindings.fill rule.replacement) = [] := by
          simp only [Bindings.words_fill, dropped, List.replicate_zero, List.flatten_nil]
        exact noWords ▸ List.nil_sublist _
      · have sameWords :
            words (bindings.fill rule.replacement) = words (bindings.fill rule.pattern) := by
          rw [Bindings.words_fill, Bindings.words_fill, once, kept]
        exact sameWords ▸ List.Sublist.refl _
    · have matched := ((rule.redex_eq_some_iff _ _ _).mp written.redex).1
      have noRun : bindings.run = [] := Match.extendAll_run _ _ rule.pattern matched inPattern
      have noWords : words (bindings.fill rule.replacement) = [] := by
        rw [Bindings.words_fill, noRun]
        exact List.flatten_replicate_nil
      exact noWords ▸ List.nil_sublist _
  rw [written.first_eq, written.second_eq]
  simp only [words_append]
  exact (List.Sublist.refl _).append (filled.append (List.Sublist.refl _))

/-- Runs keep of words what lists keep behind each other. -/
theorem lifts_of_words {Related : List String → List String → Prop}
    (refl : ∀ list, Related list list)
    (trans : ∀ {first second third}, Related first second → Related second third →
      Related first third)
    (append : ∀ {first second third fourth}, Related first second → Related third fourth →
      Related (first ++ third) (second ++ fourth)) :
    Lifts fun first second => Related (words second) (words first) where
  refl tokens := refl (words tokens)
  trans earlier later := trans later earlier
  append left right := by
    rw [words_append, words_append]
    exact append left right
  asOperand tokens := by
    have enclosed : words (.opening :: tokens ++ [.closing]) = words tokens := by
      rw [words_append]
      exact List.append_nil _
    rw [words_asOperand, enclosed]
    exact refl (words tokens)

theorem lifts_words : Lifts fun first second => words second = words first :=
  lifts_of_words (fun _ => rfl) Eq.trans (fun left right => by rw [left, right])

theorem lifts_words_subset : Lifts fun first second => words second ⊆ words first :=
  lifts_of_words List.Subset.refl List.Subset.trans (fun left right _ member =>
    List.mem_append.mpr ((List.mem_append.mp member).imp (left ·) (right ·)))

theorem lifts_words_sublist : Lifts fun first second => (words second).Sublist (words first) :=
  lifts_of_words List.Sublist.refl List.Sublist.trans List.Sublist.append

/-- The words of the result are those of the tokens, in the same order and each as often,
and no letter occurs in it that does not occur in the tokens. -/
theorem Simplifier.simplifyTokens_keeps_words (simplifier : Simplifier)
    (tokens result : List Token)
    (succeeded : (simplifier.simplifyTokens tokens).result = .ok result) :
    words result = words tokens ∧
      ∀ known : Letter, .letter known ∈ result → .letter known ∈ tokens := by
  constructor
  · exact lifts_words.simplify
      (fun rule member _ _ replaced => (shrinks_of_catalog rule member).words_eq replaced)
      tokens result .zero succeeded
  · intro known member
    exact simplifier.engine.atom_mem_of_simplify shrinks_of_catalog tokens result .zero succeeded
      _ member

theorem Simplifier.simplifyTokens_keeps_words_repeated :
    ((Simplifier.mk 20).simplifyTokens (tokenize "foo & A & A | ~(bar (foo)) ~~B bar")).result =
      .ok (tokenize "foo & A | ~(bar foo) B bar") ∧
    words (tokenize "foo & A | ~(bar foo) B bar") = ["foo", "bar", "foo", "bar"] ∧
    ∀ known : Letter, .letter known ∈ tokenize "foo & A | ~(bar foo) B bar" →
      .letter known ∈ tokenize "foo & A & A | ~(bar (foo)) ~~B bar" := by
  have succeeded : ((Simplifier.mk 20).simplifyTokens
      (tokenize "foo & A & A | ~(bar (foo)) ~~B bar")).result =
    .ok (tokenize "foo & A | ~(bar foo) B bar") := by rfl
  have keeps := simplifyTokens_keeps_words (.mk 20) _ _ succeeded
  exact ⟨succeeded, keeps.1.trans (by decide +kernel), keeps.2⟩

/-! ### Simplified text -/

namespace Simplifier

variable (simplifier : Simplifier)

theorem simplify_eq_ok (text : String) (simplification : Simplification)
    (succeeded : (simplifier.simplify text).result = .ok simplification) :
    ∃ tokens, (simplifier.simplifyTokens (tokenize text)).result = .ok tokens ∧
      simplification.simplified = render tokens := by
  obtain ⟨tokens, found, rendered, _⟩ := Outcome.andThen_eq_ok _ _ _ succeeded
  cases rendered
  exact ⟨tokens, found, rfl⟩

theorem simplify_of_tokens (text : String) (tokens : List Token)
    (found : (simplifier.simplifyTokens (tokenize text)).result = .ok tokens) :
    ∃ simplification, (simplifier.simplify text).result = .ok simplification ∧
      simplification.simplified = render tokens := by
  rw [simplify, Outcome.andThen, found]
  exact ⟨_, rfl, rfl⟩

theorem tokenize_render_simplified (text : String) (tokens : List Token)
    (succeeded : (simplifier.simplifyTokens (tokenize text)).result = .ok tokens) :
    tokenize (render tokens) = tokens := by
  apply tokenize_render
  apply legible_of_words
  intro word member
  have known := simplifier.engine.atom_mem_of_simplify shrinks_of_catalog (tokenize text) tokens
    .zero succeeded (.word word) member
  exact legible_of_mem_tokenize text _ known

/-- Simplifying the text of an expression gives the text of an expression that has
the same value under every assignment, where words are opaque atoms. -/
theorem simplify_equivalent (text : String) (wellFormed : WellFormed (tokenize text))
    (simplification : Simplification)
    (succeeded : (simplifier.simplify text).result = .ok simplification) :
    Equivalent (tokenize text) (tokenize simplification.simplified) := by
  obtain ⟨tokens, found, rendered⟩ := simplifier.simplify_eq_ok text simplification succeeded
  have faithful : Faithful simplifier.engine.rules := faithful_catalog
  have alike := (faithful.simplify (tokenize text) tokens .zero found).1
  rw [rendered, simplifier.tokenize_render_simplified text tokens found]
  exact alike.equivalent wellFormed

theorem simplify_equivalent_nested :
    WellFormed (tokenize "~ ~A & (foo|B & B)") ∧
      ((Simplifier.mk 4).simplify "~ ~A & (foo|B & B)").result =
        .ok ⟨"~ ~A & (foo|B & B)", "A & (foo | B)", ⟨4, 2, 1⟩⟩ ∧
      Equivalent (tokenize "~ ~A & (foo|B & B)") (tokenize "A & (foo | B)") := by
  have wellFormed : WellFormed (tokenize "~ ~A & (foo|B & B)") := by decide +kernel
  have succeeded : ((Simplifier.mk 4).simplify "~ ~A & (foo|B & B)").result =
      .ok ⟨"~ ~A & (foo|B & B)", "A & (foo | B)", ⟨4, 2, 1⟩⟩ := by rfl
  exact ⟨wellFormed, succeeded, simplify_equivalent (.mk 4) _ wellFormed _ succeeded⟩

end Simplifier

end BoolSimplify
