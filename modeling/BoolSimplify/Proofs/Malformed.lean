/-
Tokens that are no expression.

In an expression a symbol tells whether an operand is due behind it, and every
symbol stands where it is due.  A list in which two neighbours contradict each
other is therefore no expression: two operands in a row, an operator without its
operand, a group that holds nothing.  The main statement says that simplifying
never makes an expression of such a list, nor of any other that was none.
-/

import BoolSimplify.Proofs.Catalog
import BoolSimplify.Simplifier
import Mathlib.Data.List.Chain

namespace BoolSimplify

variable {Atom : Type}

/-! ### Neighbours in expressions -/

namespace Symbol

def startsOperand : Symbol Atom → Bool
  | opening | neg | truth _ | atom _ => true
  | closing | conj | disj => false

def endsOperand : Symbol Atom → Bool
  | closing | truth _ | atom _ => true
  | opening | neg | conj | disj => false

/-- The right symbol stands behind the left one in some expression. -/
def Fits (left right : Symbol Atom) : Prop :=
  right.startsOperand = !left.endsOperand

instance (left right : Symbol Atom) : Decidable (left.Fits right) :=
  inferInstanceAs (Decidable (_ = _))

end Symbol

namespace Reader

def operandDue : Reader → Bool
  | operand _ _ => true
  | operator _ _ _ => false

theorem step_due (assignment : Atom → Bool) (reader next : Reader) (symbol : Symbol Atom)
    (stepped : reader.step assignment symbol = some next) :
    symbol.startsOperand = reader.operandDue ∧ symbol.endsOperand = !next.operandDue := by
  cases reader with
  | operand frame outer => cases symbol <;> cases stepped <;> exact ⟨rfl, rfl⟩
  | operator disjuncts conjuncts outer =>
      cases symbol with
      | conj => cases stepped; exact ⟨rfl, rfl⟩
      | disj => cases stepped; exact ⟨rfl, rfl⟩
      | closing =>
          cases outer with
          | nil => cases stepped
          | cons frame outer => cases stepped; exact ⟨rfl, rfl⟩
      | opening => cases stepped
      | neg => cases stepped
      | truth value => cases stepped
      | atom name => cases stepped

theorem run_isChain (assignment : Atom → Bool) (reader last : Reader)
    (symbols : List (Symbol Atom)) (reached : reader.run assignment symbols = some last) :
    symbols.IsChain Symbol.Fits := by
  induction symbols generalizing reader with
  | nil => exact .nil
  | cons symbol rest ih =>
      obtain ⟨next, stepped, later⟩ := Option.bind_eq_some_iff.mp reached
      refine List.isChain_cons.mpr ⟨?_, ih next later⟩
      intro right isNext
      cases rest with
      | nil => cases isNext
      | cons other rest =>
          cases isNext
          obtain ⟨following, steppedNext, _⟩ := Option.bind_eq_some_iff.mp later
          have isDue := (step_due assignment next following right steppedNext).1
          have leftOpen := (step_due assignment reader next symbol stepped).2
          rw [Symbol.Fits, isDue, leftOpen, Bool.not_not]

end Reader

theorem WellFormed.group {symbols : List (Symbol Atom)} (wellFormed : WellFormed symbols) :
    WellFormed (.opening :: symbols ++ [.closing]) := by
  obtain ⟨expression, rfl⟩ := wellFormed
  exact ⟨.clause (.unary (.group expression)), rfl⟩

/-- The ends of an expression are neighbours of parentheses that could enclose it. -/
theorem WellFormed.isChain {symbols : List (Symbol Atom)} (wellFormed : WellFormed symbols) :
    List.IsChain Symbol.Fits (.opening :: symbols ++ [.closing]) := by
  obtain ⟨expression, written⟩ := wellFormed.group
  have reads := expression.read_symbols (fun _ => false)
  rw [written] at reads
  obtain ⟨last, reached, _⟩ := Option.bind_eq_some_iff.mp reads
  exact Reader.run_isChain _ _ _ _ reached

theorem WellFormed.fits {symbols : List (Symbol Atom)} (wellFormed : WellFormed symbols)
    {left right : Symbol Atom} (neighbours : [left, right] <:+: .opening :: symbols ++ [.closing]) :
    left.Fits right := by
  have pair := List.IsChain.infix wellFormed.isChain neighbours
  exact List.isChain_pair.mp pair

/-! ### Simplifying what is no expression -/

namespace Simplifier

/-- A result is an expression only if the tokens were one.  Hence neighbours that
contradict each other, at the ends or anywhere else, are never simplified to an
expression. -/
theorem simplify_keeps_malformed (simplifier : Simplifier) (tokens result : List Token)
    (succeeded : (simplifier.simplifyTokens tokens).result = .ok result) :
    (WellFormed result ↔ WellFormed tokens) ∧
      ∀ left right : Token, [left, right] <:+: .opening :: tokens ++ [.closing] →
        ¬left.Fits right → ¬WellFormed result := by
  have faithful : Faithful simplifier.engine.rules := faithful_catalog
  have sameForm := (faithful.simplify tokens result .zero succeeded).1.wellFormed_iff
  refine ⟨sameForm.symm, ?_⟩
  intro left right neighbours contradict wellFormed
  exact contradict ((sameForm.mpr wellFormed).fits neighbours)

theorem simplify_keeps_malformed_garbled :
    ((Simplifier.mk 20).simplifyTokens
        [.neg, .opening, .opening, .letter .a, .conj, .letter .a, .closing, .opening, .neg, .neg,
          .letter .b, .closing, .closing, .disj, .opening, .closing, .conj, .opening, .letter .c,
          .closing, .disj]).result =
      .ok [.neg, .opening, .letter .a, .letter .b, .closing, .disj, .opening, .closing, .conj,
        .letter .c, .disj] ∧
    ¬WellFormed [.neg, .opening, Token.letter .a, Token.letter .b, .closing, .disj, .opening,
        .closing, .conj, Token.letter .c, .disj] := by
  have succeeded : ((Simplifier.mk 20).simplifyTokens
      [.neg, .opening, .opening, .letter .a, .conj, .letter .a, .closing, .opening, .neg, .neg,
        .letter .b, .closing, .closing, .disj, .opening, .closing, .conj, .opening, .letter .c,
        .closing, .disj]).result =
    .ok [.neg, .opening, .letter .a, .letter .b, .closing, .disj, .opening, .closing, .conj,
      .letter .c, .disj] := by rfl
  have keeps := simplify_keeps_malformed (.mk 20) _ _ succeeded
  exact ⟨succeeded, keeps.2 .closing .opening (by decide) (by decide)⟩

end Simplifier

end BoolSimplify
