/-
The catalog of rules.

Every rule is an identity of boolean algebra, and its replacement is shorter than
its pattern and binds at least as tightly.
-/

import BoolSimplify.Rule

namespace BoolSimplify

open Element (x y z run)

/-- The rules in the order in which a pass applies them. -/
def catalog : List Rule :=
  [
    -- Equal operands are one operand
    .mk .idempotence [.opening, x, .conj, x, .closing] [x],
    .mk .idempotence [.opening, x, .disj, x, .closing] [x],
    .mk .idempotence [x, .conj, x] [x],
    .mk .idempotence [x, .disj, x] [x],
    -- Two negations cancel
    .mk .doubleNegation [.neg, .neg, x] [x],
    -- An operand and its negation are never both true
    .mk .complementAnd [.opening, x, .conj, .neg, x, .closing] [.truth false],
    .mk .complementAnd [.opening, .neg, x, .conj, x, .closing] [.truth false],
    .mk .complementAnd [x, .conj, .neg, x] [.truth false],
    .mk .complementAnd [.neg, x, .conj, x] [.truth false],
    -- An operand or its negation is always true
    .mk .complementOr [.opening, x, .disj, .neg, x, .closing] [.truth true],
    .mk .complementOr [.opening, .neg, x, .disj, x, .closing] [.truth true],
    .mk .complementOr [x, .disj, .neg, x] [.truth true],
    .mk .complementOr [.neg, x, .disj, x] [.truth true],
    -- An operand absorbs what it is combined with twice
    .mk .absorption [x, .conj, .opening, x, .disj, y, .closing] [x],
    .mk .absorption [x, .conj, .opening, y, .disj, x, .closing] [x],
    .mk .absorption [.opening, x, .disj, y, .closing, .conj, x] [x],
    .mk .absorption [.opening, y, .disj, x, .closing, .conj, x] [x],
    -- A common operand is taken out of a disjunction
    .mk .distribution
      [.opening, x, .conj, y, .closing, .disj, .opening, x, .conj, z, .closing]
      [x, .conj, .opening, y, .disj, z, .closing],
    .mk .distribution
      [.opening, x, .conj, y, .closing, .disj, .opening, z, .conj, x, .closing]
      [x, .conj, .opening, y, .disj, z, .closing],
    -- A truth value decides a conjunction or disjunction, or drops out
    .mk .identity [.truth true, .conj, x] [x],
    .mk .identity [x, .conj, .truth true] [x],
    .mk .identity [.truth false, .conj, x] [.truth false],
    .mk .identity [x, .conj, .truth false] [.truth false],
    .mk .identity [.truth true, .conj, .neg, x] [.neg, x],
    .mk .identity [.neg, x, .conj, .truth true] [.neg, x],
    .mk .identity [.truth false, .conj, .neg, x] [.truth false],
    .mk .identity [.neg, x, .conj, .truth false] [.truth false],
    .mk .identity [.truth true, .disj, x] [.truth true],
    .mk .identity [x, .disj, .truth true] [.truth true],
    .mk .identity [.truth false, .disj, x] [x],
    .mk .identity [x, .disj, .truth false] [x],
    .mk .identity [.truth true, .disj, .neg, x] [.truth true],
    .mk .identity [.neg, x, .disj, .truth true] [.truth true],
    .mk .identity [.truth false, .disj, .neg, x] [.neg, x],
    .mk .identity [.neg, x, .disj, .truth false] [.neg, x],
    -- Operators on truth values
    .mk .constantFolding [.neg, .truth true] [.truth false],
    .mk .constantFolding [.neg, .truth false] [.truth true],
    .mk .constantFolding [.truth true, .conj, .truth true] [.truth true],
    .mk .constantFolding [.truth true, .conj, .truth false] [.truth false],
    .mk .constantFolding [.truth false, .conj, .truth true] [.truth false],
    .mk .constantFolding [.truth false, .conj, .truth false] [.truth false],
    .mk .constantFolding [.truth true, .disj, .truth true] [.truth true],
    .mk .constantFolding [.truth true, .disj, .truth false] [.truth true],
    .mk .constantFolding [.truth false, .disj, .truth true] [.truth true],
    .mk .constantFolding [.truth false, .disj, .truth false] [.truth false],
    -- Parentheses that group nothing are dropped
    .mk .parenthesisCleanup [.opening, .opening, run, .closing, .closing] [.opening, run, .closing],
    .mk .parenthesisCleanup [.opening, x, .closing] [x]]

end BoolSimplify
