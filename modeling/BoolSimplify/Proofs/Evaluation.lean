/-
Expressions without letters and words.

An operator between truth values can always be taken away where its operands are
complete, and in an expression they are.  What a run leaves of truth values and
operators is therefore a single truth value.  The main statement says that such an
expression is evaluated: the run ends within a budget that depends on the number of
tokens only, and its result is the value of the expression.
-/

import BoolSimplify.Proofs.Order

namespace BoolSimplify

/-! ### Truth values that are left over -/

theorem Strength.conj_admits_of_disj {previous next : Option Token}
    (admitted : Strength.disj.admits previous next = true) :
    Strength.conj.admits previous next = true := by
  simp only [Strength.admits, Bool.and_eq_true] at admitted ⊢
  exact admitted.1.1

section Irreducible

variable {tokens : List Token} (irreducible : Irreducible catalog tokens)

include irreducible

theorem Irreducible.not_contraction {result : List Token} : ¬Contraction tokens result := by
  intro contraction
  obtain ⟨rule, member, replaced⟩ := contraction.exists_replaces
  exact irreducible.not_replaces member replaced

theorem Irreducible.not_negated_truth {before after : List Token} {value : Bool}
    (split : tokens = before ++ .neg :: .truth value :: after) : False := by
  subst split
  have taken : Contracts .atom [.neg, .truth value] (.truth !value) :=
    .negation (.truth value) _ rfl
  exact irreducible.not_contraction (.intro before after taken rfl)

theorem Irreducible.not_joined_truths {before after : List Token} (connective : Connective)
    {left right : Bool}
    (split : tokens = before ++ .truth left :: connective.token :: .truth right :: after)
    (admitted : connective.strength.admits before.getLast? after.head? = true) : False := by
  subst split
  have joined : Contracts connective.strength [.truth left, connective.token, .truth right] _ :=
    .join connective (.truth left) (.truth right) _ rfl
  exact irreducible.not_contraction (.intro before after joined admitted)

/-- No operator is left over between truth values.  Between the neighbours that an
operand has in an expression it is complete, so that none of them holds a rule back. -/
theorem Irreducible.symbols_eq_truth (constant : ∀ name, .atom name ∉ tokens)
    (settled : EachGroup (Settled catalog) tokens) {strength : Strength}
    (expression : Expression Name strength) (before after : List Token)
    (split : tokens = before ++ (expression.symbols ++ after))
    (admitted : strength.admits before.getLast? after.head? = true) :
    ∃ value, expression.symbols = [.truth value] := by
  induction expression generalizing before after with
  | truth value => exact ⟨value, rfl⟩
  | atom name =>
      rw [split] at constant
      exact absurd (List.mem_append_right before List.mem_cons_self) (constant name)
  | neg operand ih =>
      obtain ⟨value, operandEq⟩ := ih (before ++ [.neg]) after
        (by simpa [Expression.symbols] using split) rfl
      exact (irreducible.not_negated_truth
        (by simpa [Expression.symbols, operandEq] using split)).elim
  | group inner ih =>
      have innerSplit : tokens = before ++ .opening :: (inner.symbols ++ .closing :: after) := by
        simpa [Expression.symbols] using split
      have admittedInside : Strength.disj.admits (before ++ [Symbol.opening]).getLast?
          (some .closing) = true := by
        rw [List.getLast?_concat]
        rfl
      obtain ⟨value, innerEq⟩ := ih (before ++ [.opening]) (.closing :: after)
        (by simpa using innerSplit) admittedInside
      have several := (settled before inner.symbols after innerSplit inner.balanced).2
      rw [innerEq] at several
      cases several
  | unary operand ih => exact ih before after split rfl
  | conj left right ihLeft ihRight =>
      obtain ⟨leftValue, leftEq⟩ := ihLeft before (.conj :: (right.symbols ++ after))
        (by simpa [Expression.symbols] using split) admitted
      obtain ⟨rightValue, rightEq⟩ := ihRight (before ++ (left.symbols ++ [.conj])) after
        (by simpa [Expression.symbols] using split) rfl
      have joined := split
      simp only [Expression.symbols, leftEq, rightEq] at joined
      exact (irreducible.not_joined_truths .conj (by simpa [Connective.token] using joined)
        admitted).elim
  | clause conjunction ih => exact ih before after split (Strength.conj_admits_of_disj admitted)
  | disj left right ihLeft ihRight =>
      obtain ⟨leftValue, leftEq⟩ := ihLeft before (.disj :: (right.symbols ++ after))
        (by simpa [Expression.symbols] using split)
        (Strength.admits_of_next admitted (by simp))
      obtain ⟨rightValue, rightEq⟩ := ihRight (before ++ (left.symbols ++ [.disj])) after
        (by simpa [Expression.symbols] using split) (by simp [Strength.admits])
      have joined := split
      simp only [Expression.symbols, leftEq, rightEq] at joined
      exact (irreducible.not_joined_truths .disj (by simpa [Connective.token] using joined)
        admitted).elim

end Irreducible

/-! ### Evaluating -/

namespace Simplifier

variable (simplifier : Simplifier)

theorem irreducible_of_simplifyTokens (tokens result : List Token)
    (succeeded : (simplifier.simplifyTokens tokens).result = .ok result) :
    Irreducible catalog result ∧ EachGroup (Settled catalog) result := by
  obtain ⟨forest, flat, between, rfl, flattened, reached, _⟩ :=
    simplifier.engine.flattens_of_simplify tokens .zero result succeeded
  exact ⟨simplifier.irreducible_of_fixedPoint flat result between reached,
    simplifier.settled_of_fixedPoint flat result between reached (settled_of_flattens flattened)⟩

theorem simplifyTokens_constant (expression : Expression Name .disj)
    (constant : ∀ name, .atom name ∉ expression.symbols)
    (enough : expression.symbols.length + 1 ≤ simplifier.maxPasses) (assignment : Name → Bool) :
    (simplifier.simplifyTokens expression.symbols).result =
      .ok [.truth (expression.value assignment)] := by
  obtain ⟨result, succeeded, _⟩ := simplifier.engine.simplify_converges decreases_weight_catalog
    expression.symbols expression.balanced enough
  have faithful : Faithful simplifier.engine.rules := faithful_catalog
  have alike := (faithful.simplify expression.symbols result .zero succeeded).1
  obtain ⟨reached, rfl, sameValue⟩ := alike.exists_expression expression rfl
  have stillConstant (name : Name) : .atom name ∉ reached.symbols := fun member =>
    constant name (simplifier.engine.atom_mem_of_simplify shrinks_of_catalog _ _ .zero succeeded
      name member)
  obtain ⟨irreducible, settled⟩ := simplifier.irreducible_of_simplifyTokens _ _ succeeded
  obtain ⟨value, reachedEq⟩ := irreducible.symbols_eq_truth stillConstant settled reached [] []
    (by simp) rfl
  have valueEq :=
    reached.value_eq_of_symbols_eq (.clause (.unary (.truth value))) reachedEq assignment
  rw [sameValue] at valueEq
  refine Eq.trans succeeded ?_
  rw [reachedEq, valueEq]
  rfl

theorem constant_of_truth (simplification : Simplification) (value : Bool)
    (rendered : simplification.simplified = render [.truth value]) :
    simplification.constant? = some value := by
  unfold Simplification.constant?
  rw [rendered]
  cases value with
  | true => rfl
  | false => rfl

/-- An expression of truth values alone is simplified to the truth value that it has. -/
theorem simplify_evaluates (text : String) (expression : Expression Name .disj)
    (written : expression.symbols = tokenize text)
    (constant : ∀ name, .atom name ∉ tokenize text)
    (enough : (tokenize text).length + 1 ≤ simplifier.maxPasses) (assignment : Name → Bool) :
    (simplifier.simplifyTokens (tokenize text)).result =
        .ok [.truth (expression.value assignment)] ∧
      ∃ simplification, (simplifier.simplify text).result = .ok simplification ∧
        tokenize simplification.simplified = [.truth (expression.value assignment)] ∧
        simplification.constant? = some (expression.value assignment) := by
  have found : (simplifier.simplifyTokens (tokenize text)).result =
      .ok [.truth (expression.value assignment)] := by
    rw [← written] at constant enough ⊢
    exact simplifier.simplifyTokens_constant expression constant enough assignment
  obtain ⟨simplification, succeeded, rendered⟩ := simplifier.simplify_of_tokens text _ found
  refine ⟨found, simplification, succeeded, ?_, constant_of_truth simplification _ rendered⟩
  rw [rendered]
  exact simplifier.tokenize_render_simplified text _ found

/-- `~(True & ~False) | False & ~~True | ~(False | True)` -/
def groundExpression : Expression Name .disj :=
  .disj
    (.disj
      (.clause (.unary (.neg (.group
        (.clause (.conj (.unary (.truth true)) (.neg (.truth false))))))))
      (.conj (.unary (.truth false)) (.neg (.neg (.truth true)))))
    (.unary (.neg (.group (.disj (.clause (.unary (.truth false))) (.unary (.truth true))))))

theorem simplify_evaluates_ground :
    groundExpression.symbols = tokenize "~(True & ~False) | False & ~~True | ~(False|True)" ∧
      (∀ name, .atom name ∉ tokenize "~(True & ~False) | False & ~~True | ~(False|True)") ∧
      (tokenize "~(True & ~False) | False & ~~True | ~(False|True)").length + 1 ≤ 21 ∧
      ((Simplifier.mk 21).simplifyTokens
          (tokenize "~(True & ~False) | False & ~~True | ~(False|True)")).result =
        .ok [.truth false] ∧
      ∃ simplification,
        ((Simplifier.mk 21).simplify "~(True & ~False) | False & ~~True | ~(False|True)").result =
          .ok simplification ∧
        tokenize simplification.simplified = [.truth false] ∧
        simplification.constant? = some false := by
  have written : groundExpression.symbols =
      tokenize "~(True & ~False) | False & ~~True | ~(False|True)" := by rfl
  have constant (name : Name) :
      .atom name ∉ tokenize "~(True & ~False) | False & ~~True | ~(False|True)" := by
    rw [← written]
    simp [groundExpression, Expression.symbols]
  have enough : (tokenize "~(True & ~False) | False & ~~True | ~(False|True)").length + 1 ≤ 21 := by
    rw [← written]
    decide
  exact ⟨written, constant, enough,
    simplify_evaluates (.mk 21) _ groundExpression written constant enough (fun _ => false)⟩

end Simplifier

end BoolSimplify
