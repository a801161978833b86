/-
Operands in context.

A reader that stands before an operand takes in its value and nothing else,
whatever stands around it.  Hence operands that are read alike can be exchanged in
every list, well formed or not.  A group is an operand, and dropping needless
parentheses is such an exchange.
-/

import BoolSimplify.Proofs.Balance
import BoolSimplify.Proofs.Reading

namespace BoolSimplify

variable {Atom : Type}

/-! ### Readers within groups -/

namespace Reader

def outer : Reader → List Frame
  | .operand _ outer => outer
  | .operator _ _ outer => outer

/-- The same place with further groups open around it. -/
def within (around : List Frame) : Reader → Reader
  | .operand frame outer => .operand frame (outer ++ around)
  | .operator disjuncts conjuncts outer => .operator disjuncts conjuncts (outer ++ around)

theorem step_outer (assignment : Atom → Bool) (reader next : Reader) (symbol : Symbol Atom)
    (stepped : reader.step assignment symbol = some next) :
    Unmatched.step ⟨0, reader.outer.length⟩ symbol = ⟨0, next.outer.length⟩ := by
  cases reader with
  | operand frame outer => cases symbol <;> cases stepped <;> rfl
  | operator disjuncts conjuncts outer =>
      cases symbol with
      | closing =>
          cases outer with
          | nil => cases stepped
          | cons frame outer => cases stepped; rfl
      | conj => cases stepped; rfl
      | disj => cases stepped; rfl
      | opening => cases stepped
      | neg => cases stepped
      | truth value => cases stepped
      | atom name => cases stepped

theorem run_outer (assignment : Atom → Bool) (reader last : Reader)
    (symbols : List (Symbol Atom)) (reached : reader.run assignment symbols = some last) :
    symbols.foldl Unmatched.step ⟨0, reader.outer.length⟩ = ⟨0, last.outer.length⟩ := by
  induction symbols generalizing reader with
  | nil => cases reached; rfl
  | cons symbol rest ih =>
      rcases Option.bind_eq_some_iff.mp reached with ⟨next, stepped, later⟩
      rw [List.foldl_cons, step_outer assignment reader next symbol stepped]
      exact ih next later

theorem step_within (assignment : Atom → Bool) (reader : Reader) (symbol : Symbol Atom)
    (around : List Frame) (inside : symbol = .closing → reader.outer ≠ []) :
    (reader.within around).step assignment symbol =
      (reader.step assignment symbol).map (within around) := by
  cases reader with
  | operand frame outer => cases symbol <;> rfl
  | operator disjuncts conjuncts outer =>
      cases outer with
      | cons frame outer => cases symbol <;> rfl
      | nil =>
          cases symbol with
          | closing => exact absurd rfl (inside rfl)
          | opening => cases around <;> rfl
          | conj => rfl
          | disj => rfl
          | neg => cases around <;> rfl
          | truth value => cases around <;> rfl
          | atom name => cases around <;> rfl

theorem run_within (assignment : Atom → Bool) (reader : Reader) (symbols : List (Symbol Atom))
    (around : List Frame)
    (enclosed : (symbols.foldl Unmatched.step ⟨0, reader.outer.length⟩).closings = 0) :
    (reader.within around).run assignment symbols =
      (reader.run assignment symbols).map (within around) := by
  induction symbols generalizing reader with
  | nil => rfl
  | cons symbol rest ih =>
      have inside : symbol = .closing → reader.outer ≠ [] := by
        intro isClosing noGroup
        rw [isClosing, noGroup, List.foldl_cons, foldl_step_eq_join] at enclosed
        simp only [Unmatched.step, List.length_nil, Unmatched.join] at enclosed
        omega
      simp only [run, step_within assignment reader symbol around inside]
      cases stepped : reader.step assignment symbol with
      | none => rfl
      | some next =>
          rw [List.foldl_cons, step_outer assignment reader next symbol stepped] at enclosed
          exact ih next enclosed

end Reader

/-! ### Reading operands -/

def ReadAsOperand (symbols : List (Symbol Atom)) : Prop :=
  ∀ (assignment : Atom → Bool) (after : List (Symbol Atom)),
    (∀ frame outer, (Reader.operand frame outer).finish assignment (symbols ++ after) =
      (read assignment symbols).bind fun value =>
        (frame.take value outer).finish assignment after) ∧
    (∀ disjuncts conjuncts outer,
      (Reader.operator disjuncts conjuncts outer).finish assignment (symbols ++ after) = none)

private theorem finish_group (assignment : Atom → Bool) (inner after : List (Symbol Atom))
    (balanced : Balanced inner) (frame : Frame) (outer : List Frame) :
    (Reader.operand frame outer).finish assignment (.opening :: (inner ++ .closing :: after)) =
      (read assignment inner).bind fun value =>
        (frame.take value outer).finish assignment after := by
  have enclosed : (inner.foldl Unmatched.step ⟨0, Reader.start.outer.length⟩).closings = 0 := by
    change (unmatched inner).closings = 0
    rw [balanced]
    rfl
  have inside := Reader.run_within assignment .start inner (frame :: outer) enclosed
  change (Reader.operand .fresh (frame :: outer)).run assignment inner = _ at inside
  rw [Reader.finish_cons, Reader.step, Option.bind_some, Reader.finish_append, inside]
  unfold read Reader.finish
  cases reached : Reader.start.run assignment inner with
  | none => rfl
  | some last =>
      have closed : unmatched inner = ⟨0, last.outer.length⟩ :=
        Reader.run_outer assignment _ last inner reached
      rw [balanced, Unmatched.zero, Unmatched.mk.injEq] at closed
      have noGroup : last.outer = [] := List.length_eq_zero_iff.mp closed.2.symm
      cases last with
      | operand frame outer => rfl
      | operator disjuncts conjuncts outer =>
          change outer = [] at noGroup
          subst noGroup
          rfl

theorem readAlike_group {inner : List (Symbol Atom)} (balanced : Balanced inner) :
    ReadAlike (.opening :: inner ++ [.closing]) inner := by
  intro assignment
  have ended := finish_group assignment inner [] balanced .fresh []
  refine Eq.trans ended ?_
  cases read assignment inner with
  | none => rfl
  | some value => cases value <;> rfl

namespace ReadAsOperand

theorem atomic (symbol : Symbol Atom) (isAtomic : symbol.isAtomic = true) :
    ReadAsOperand [symbol] := by
  intro assignment after
  cases symbol with
  | truth value =>
      refine ⟨?_, fun _ _ _ => rfl⟩
      intro frame outer
      cases value <;> rfl
  | atom name =>
      refine ⟨?_, fun _ _ _ => rfl⟩
      intro frame outer
      change (frame.take (assignment name) outer).finish assignment after =
        (frame.take (false || (true && (assignment name != false))) outer).finish
          assignment after
      rw [Bool.bne_false, Bool.true_and, Bool.false_or]
  | opening => cases isAtomic
  | closing => cases isAtomic
  | conj => cases isAtomic
  | disj => cases isAtomic
  | neg => cases isAtomic

theorem group (inner : List (Symbol Atom)) (balanced : Balanced inner) :
    ReadAsOperand (.opening :: inner ++ [.closing]) := by
  intro assignment after
  refine ⟨?_, fun _ _ _ => rfl⟩
  intro frame outer
  rw [readAlike_group balanced, List.append_assoc]
  exact finish_group assignment inner after balanced frame outer

theorem read_neg {rest : List (Symbol Atom)} (operand : ReadAsOperand rest)
    (assignment : Atom → Bool) :
    read assignment (.neg :: rest) = (read assignment rest).map (!·) := by
  have ended := (operand assignment []).1 ⟨false, true, true⟩ []
  rw [List.append_nil] at ended
  refine Eq.trans (Reader.finish_cons assignment .start .neg rest) (Eq.trans ended ?_)
  cases read assignment rest with
  | none => rfl
  | some value => cases value <;> rfl

theorem neg {rest : List (Symbol Atom)} (operand : ReadAsOperand rest) :
    ReadAsOperand (.neg :: rest) := by
  intro assignment after
  refine ⟨?_, fun _ _ _ => rfl⟩
  intro frame outer
  rw [operand.read_neg, List.cons_append, Reader.finish_cons, Reader.step, Option.bind_some,
    (operand assignment after).1]
  cases read assignment rest with
  | none => rfl
  | some value =>
      obtain ⟨disjuncts, conjuncts, negated⟩ := frame
      simp only [Option.bind_some, Option.map_some, Frame.take]
      congr 2
      cases value <;> cases negated <;> rfl

end ReadAsOperand

theorem Operand.readAsOperand {symbols : List (Symbol Atom)} (operand : Operand symbols) :
    ReadAsOperand symbols := by
  induction operand with
  | atomic symbol isAtomic => exact .atomic symbol isAtomic
  | group inner balanced => exact .group inner balanced
  | neg rest operand ih => exact ih.neg

/-! ### Exchanging operands -/

/-- Two lists can be exchanged when they are read alike in every context. -/
def Interchangeable (left right : List (Symbol Atom)) : Prop :=
  ∀ (assignment : Atom → Bool) (reader : Reader) (after : List (Symbol Atom)),
    reader.finish assignment (left ++ after) = reader.finish assignment (right ++ after)

namespace Interchangeable

theorem refl (symbols : List (Symbol Atom)) : Interchangeable symbols symbols :=
  fun _ _ _ => rfl

theorem trans {first second third : List (Symbol Atom)} (left : Interchangeable first second)
    (right : Interchangeable second third) : Interchangeable first third :=
  fun assignment reader after =>
    (left assignment reader after).trans (right assignment reader after)

theorem append {first second third fourth : List (Symbol Atom)}
    (left : Interchangeable first second) (right : Interchangeable third fourth) :
    Interchangeable (first ++ third) (second ++ fourth) := by
  intro assignment reader after
  rw [List.append_assoc, left, List.append_assoc, Reader.finish_append, Reader.finish_append]
  cases reader.run assignment second with
  | none => rfl
  | some next => exact right assignment next after

theorem readAlike {left right : List (Symbol Atom)} (same : Interchangeable left right) :
    ReadAlike left right := by
  intro assignment
  have alone := same assignment .start []
  rwa [List.append_nil, List.append_nil] at alone

theorem readAlike_between {left right : List (Symbol Atom)} (same : Interchangeable left right)
    (before after : List (Symbol Atom)) :
    ReadAlike (before ++ (left ++ after)) (before ++ (right ++ after)) :=
  ((refl before).append (same.append (refl after))).readAlike

end Interchangeable

theorem ReadAsOperand.interchangeable {left right : List (Symbol Atom)}
    (leftOperand : ReadAsOperand left) (rightOperand : ReadAsOperand right)
    (alike : ReadAlike left right) : Interchangeable left right := by
  intro assignment reader after
  cases reader with
  | operand frame outer =>
      rw [(leftOperand assignment after).1, (rightOperand assignment after).1, alike assignment]
  | operator disjuncts conjuncts outer =>
      rw [(leftOperand assignment after).2, (rightOperand assignment after).2]

theorem interchangeable_groups {left right : List (Symbol Atom)} (leftBalanced : Balanced left)
    (rightBalanced : Balanced right) (alike : ReadAlike left right) :
    Interchangeable (.opening :: left ++ [.closing]) (.opening :: right ++ [.closing]) := by
  apply (ReadAsOperand.group left leftBalanced).interchangeable
    (ReadAsOperand.group right rightBalanced)
  intro assignment
  rw [readAlike_group leftBalanced, readAlike_group rightBalanced, alike]

theorem interchangeable_asOperand {inner : List (Symbol Atom)} (balanced : Balanced inner) :
    Interchangeable (.opening :: inner ++ [.closing]) (asOperand inner) := by
  unfold asOperand
  split
  · rename_i single
    exact (ReadAsOperand.group inner balanced).interchangeable
      (operand_of_isOperand inner single).readAsOperand (readAlike_group balanced)
  · exact .refl _

end BoolSimplify
