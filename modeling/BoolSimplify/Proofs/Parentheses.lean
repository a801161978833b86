/-
Parentheses in runs.

A match may begin and end inside any group, and a run that is written again is not
always the one that stood in its place.  Neither disturbs the parentheses around the
match, as long as both sides of a rule leave the same of them unmatched.  The main
statement is about balanced sides, which all declared rules have.
-/

import BoolSimplify.Proofs.Arrangement
import BoolSimplify.Proofs.Declaration
import BoolSimplify.Token.Fragments

namespace BoolSimplify

theorem unmatched_asOperand (tokens : List Token) :
    unmatched (asOperand tokens) = unmatched (.opening :: tokens ++ [.closing]) := by
  unfold asOperand
  split
  · rename_i single
    have balanced := (operand_of_isOperand tokens single).balanced
    rw [balanced, balanced.group]
  · rfl

theorem lifts_unmatched : Lifts fun first second => unmatched second = unmatched first where
  refl tokens := rfl
  trans earlier later := later.trans earlier
  append left right := by rw [unmatched_append, unmatched_append, left, right]
  asOperand := unmatched_asOperand

/-- Where both sides of each rule are balanced, bringing any tokens to a fixed point
keeps the parentheses among them that have no match, and simplifying ends with
balanced tokens if it succeeds.  The rules of the catalog and all that can be
declared are like this. -/
theorem runs_keep_parentheses :
    (∀ engine : Engine,
      (∀ rule ∈ engine.rules, Balanced rule.pattern ∧ Balanced rule.replacement) →
        ∀ (tokens result : List Token) (stats : Stats),
          ((engine.fixedPoint tokens stats).result = .ok result →
              unmatched result = unmatched tokens) ∧
            ((engine.simplify tokens stats).result = .ok result → Balanced result)) ∧
      (∀ rule ∈ catalog, Balanced rule.pattern ∧ Balanced rule.replacement) ∧
      ∀ text declaration, RuleText.Declaration.parse text = .ok declaration →
        Balanced declaration.pattern ∧ Balanced declaration.replacement := by
  refine ⟨?_, balanced_sides, RuleText.Declaration.balanced_of_parse⟩
  intro engine sides tokens result stats
  have replaces (rule : Rule) (member : rule ∈ engine.rules) (first second : List Token)
      (replaced : rule.Replaces first second) : unmatched second = unmatched first := by
    obtain ⟨patternBalanced, replacementBalanced⟩ := sides rule member
    exact (replaced.unmatched_eq (patternBalanced.trans replacementBalanced.symm)).symm
  constructor
  · exact lifts_unmatched.fixedPoint replaces tokens result stats
  · intro succeeded
    have balanced := engine.balanced_of_simplify tokens stats result succeeded
    exact (lifts_unmatched.simplify replaces tokens result stats succeeded).trans balanced

/-- `(E) E => E (E)`, which writes its second run twice and not the first one -/
def runDoubled : Rule :=
  .mk .identity [.opening, .run, .closing, .run] [.run, .opening, .run, .closing]

/-- Around the first match stand a `)` and a `(` without a match.  The second one takes
a group apart that was simplified before. -/
theorem runs_keep_parentheses_doubled :
    RuleText.Declaration.parse "Identity: (E) E => E (E)" =
        .ok ⟨"Identity", runDoubled.pattern, runDoubled.replacement⟩ ∧
      Balanced runDoubled.pattern ∧ Balanced runDoubled.replacement ∧
      (Engine.fixedPoint ⟨[runDoubled], 2⟩ (tokenize ") (foo) & B (~") .zero).result =
        .ok (tokenize ") & B (& B) (~") ∧
      unmatched (tokenize ") & B (& B) (~") = ⟨1, 1⟩ ∧
      (Engine.simplify ⟨[runDoubled], 9⟩ (tokenize "((foo | A) & B) | C") .zero).result =
        .ok (tokenize "(& B (& B)) | C") ∧
      Balanced (tokenize "(& B (& B)) | C") := by
  have declared : RuleText.Declaration.parse "Identity: (E) E => E (E)" =
      .ok ⟨"Identity", runDoubled.pattern, runDoubled.replacement⟩ := by decide +kernel
  have reached : (Engine.fixedPoint ⟨[runDoubled], 2⟩ (tokenize ") (foo) & B (~") .zero).result =
      .ok (tokenize ") & B (& B) (~") := by rfl
  have simplified :
      (Engine.simplify ⟨[runDoubled], 9⟩ (tokenize "((foo | A) & B) | C") .zero).result =
        .ok (tokenize "(& B (& B)) | C") := by rfl
  obtain ⟨keep, _, declaredSides⟩ := runs_keep_parentheses
  have sides := declaredSides _ _ declared
  have keepDoubled (maxPasses : Nat) := keep ⟨[runDoubled], maxPasses⟩ fun rule member => by
    rw [List.mem_singleton.mp member]
    exact sides
  have sameUnmatched := (keepDoubled 2 _ _ _).1 reached
  exact ⟨declared, sides.1, sides.2, reached, sameUnmatched.trans (by decide +kernel), simplified,
    (keepDoubled 9 _ _ _).2 simplified⟩

end BoolSimplify
