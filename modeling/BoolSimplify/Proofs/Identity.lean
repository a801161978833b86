/-
Rules that are identities of boolean algebra.

The sides of such a rule are expressions of equal value, and the replacement binds
at least as tightly as the pattern.  A match whose two neighbours do not bind
tighter is then complete: a reader takes in the pattern and the replacement alike,
whatever stands further away.  The main statement says that a replacement leaves
every list read as it was, and that this includes the lists that are not well
formed.
-/

import BoolSimplify.Catalog
import BoolSimplify.Proofs.Operands
import BoolSimplify.Proofs.Rewriting
import BoolSimplify.Proofs.Strength

namespace BoolSimplify

variable {Atom : Type}

/-! ### Filling in letters -/

def Bindings.ofLetters (letters : Slot → Letter) : Bindings :=
  ⟨fun slot => some (letters slot), []⟩

def slotAssignment (assignment : Name → Bool) (letters : Slot → Letter) : Placeholder → Bool
  | .slot slot => assignment (.letter (letters slot))
  | .run => false

namespace Bindings

theorem extendAll_ofLetters (letters : Slot → Letter) (pattern replacement : List Element)
    (after : List Token) (patternNoRun : Element.run ∉ pattern)
    (replacementNoRun : Element.run ∉ replacement)
    (bound : ∀ slot, .atom (.slot slot) ∈ replacement → .atom (.slot slot) ∈ pattern) :
    ∃ reached : Bindings,
      Match.extendAll ⟨.empty, (ofLetters letters).fill pattern ++ after⟩ pattern =
        some ⟨reached, after⟩ ∧
      reached.fill replacement = (ofLetters letters).fill replacement := by
  obtain ⟨reached, grows, _, matched⟩ := Match.extendAll_of_fill .empty (.ofLetters letters)
    pattern after (.of_noRun patternNoRun) (fun slot _ => ⟨letters slot, rfl⟩)
    (fun slot letter isBound => by cases isBound)
  refine ⟨reached, matched,
    fill_congr _ _ _ (fun member => absurd member replacementNoRun) ?_⟩
  intro slot occurs
  obtain ⟨letter, isLetter⟩ := Match.extendAll_binds _ _ pattern matched slot (bound slot occurs)
  exact isLetter.trans (grows slot letter isLetter).symm

theorem run_fill_ofLetters (assignment : Name → Bool) (letters : Slot → Letter)
    (reader : Reader) (elements : List Element) (noRun : Element.run ∉ elements) :
    reader.run assignment ((ofLetters letters).fill elements) =
      reader.run (slotAssignment assignment letters) elements := by
  induction elements generalizing reader with
  | nil => rfl
  | cons element elements ih =>
      have noRunLater : Element.run ∉ elements :=
        fun member => noRun (List.mem_cons_of_mem element member)
      have single : reader.run assignment (element.expand (ofLetters letters).image) =
          reader.step (slotAssignment assignment letters) element := by
        cases element with
        | atom placeholder =>
            cases placeholder with
            | slot slot => cases reader <;> rfl
            | run => exact absurd List.mem_cons_self noRun
        | opening => cases reader <;> rfl
        | closing =>
            cases reader with
            | operand frame outer => rfl
            | operator disjuncts conjuncts outer => cases outer <;> rfl
        | conj => cases reader <;> rfl
        | disj => cases reader <;> rfl
        | neg => cases reader <;> rfl
        | truth value => cases reader <;> rfl
      rw [fill_cons, Reader.run_append, single, Reader.run]
      cases reader.step (slotAssignment assignment letters) element with
      | none => rfl
      | some next => exact ih next noRunLater

theorem read_fill_ofLetters (assignment : Name → Bool) (letters : Slot → Letter)
    (elements : List Element) (noRun : Element.run ∉ elements) :
    read assignment ((ofLetters letters).fill elements) =
      read (slotAssignment assignment letters) elements := by
  unfold read Reader.finish
  rw [run_fill_ofLetters assignment letters _ elements noRun]

end Bindings

/-! ### Expressions of equal value between neighbours -/

namespace Reader

/-- What an operand that is due stands behind can be told from the last token. -/
theorem frame_of_getLast (assignment : Name → Bool) (before : List Token) (frame : Frame)
    (outer : List Frame) (reached : start.run assignment before = some (.operand frame outer))
    (notNeg : before.getLast? ≠ some .neg) :
    frame.negated = false ∧ (before.getLast? ≠ some .conj → frame.conjuncts = true) := by
  rcases List.eq_nil_or_concat before with rfl | ⟨earlier, token, rfl⟩
  · cases reached
    exact ⟨rfl, fun _ => rfl⟩
  · rw [List.concat_eq_append] at reached notNeg ⊢
    rw [List.getLast?_concat] at notNeg ⊢
    rw [run_append] at reached
    rcases Option.bind_eq_some_iff.mp reached with ⟨reader, _, stepped⟩
    rcases Option.bind_eq_some_iff.mp stepped with ⟨next, readToken, ended⟩
    cases ended
    cases reader with
    | operand earlierFrame earlierOuter =>
        cases token with
        | neg => exact absurd rfl notNeg
        | opening => cases readToken; exact ⟨rfl, fun _ => rfl⟩
        | truth value => cases readToken
        | atom name => cases readToken
        | closing => cases readToken
        | conj => cases readToken
        | disj => cases readToken
    | operator disjuncts conjuncts earlierOuter =>
        cases token with
        | conj => cases readToken; exact ⟨rfl, fun notConj => absurd rfl notConj⟩
        | disj => cases readToken; exact ⟨rfl, fun _ => rfl⟩
        | closing => cases earlierOuter <;> cases readToken
        | opening => cases readToken
        | neg => cases readToken
        | truth value => cases readToken
        | atom name => cases readToken

theorem finish_operator_congr (assignment : Atom → Bool) (outer : List Frame)
    (after : List (Symbol Atom)) (first last firstOther lastOther : Bool)
    (same : (first || last) = (firstOther || lastOther)) (notConj : after.head? ≠ some .conj) :
    (operator first last outer).finish assignment after =
      (operator firstOther lastOther outer).finish assignment after := by
  cases after with
  | nil =>
      unfold finish
      cases outer with
      | nil => exact congrArg some same
      | cons frame outer => rfl
  | cons symbol after =>
      rw [finish_cons, finish_cons]
      cases symbol with
      | conj => exact absurd rfl notConj
      | disj => simp only [step, same]
      | closing =>
          cases outer with
          | nil => rfl
          | cons frame outer => simp only [step, same]
      | opening => rfl
      | neg => rfl
      | truth value => rfl
      | atom name => rfl

end Reader

namespace Expression

/-- How a reader that stands where an expression is complete takes it in. -/
theorem run_complete (assignment : Atom → Bool) (expression : Expression Atom .disj)
    (frame : Frame) (outer : List Frame)
    (notNegated : expression.root ≠ .atom → frame.negated = false)
    (noConjuncts : expression.root = .disj → frame.conjuncts = true) :
    ∃ before last, (Reader.operand frame outer).run assignment expression.symbols =
        some (.operator before last outer) ∧
      (before || last) = (frame.disjuncts || frame.conjuncts &&
        (expression.value assignment != frame.negated)) ∧
      (expression.root ≠ .disj → before = frame.disjuncts ∧
        last = (frame.conjuncts && (expression.value assignment != frame.negated))) := by
  obtain ⟨disjuncts, conjuncts, negated⟩ := frame
  cases expression with
  | clause conjunction =>
      cases conjunction with
      | unary operand =>
          have reads := operand.readsAs assignment ⟨disjuncts, conjuncts, negated⟩ outer
          exact ⟨_, _, reads, rfl, fun _ => ⟨rfl, rfl⟩⟩
      | conj left right =>
          have positive := notNegated Strength.noConfusion
          change negated = false at positive
          subst positive
          have reads := (Expression.conj left right).readsAs assignment disjuncts conjuncts outer
          refine ⟨_, _, reads, ?_, fun _ => ⟨rfl, ?_⟩⟩
          · rw [Bool.bne_false]
            rfl
          · rw [Bool.bne_false]
            rfl
  | disj left right =>
      have positive := notNegated Strength.noConfusion
      change negated = false at positive
      subst positive
      have alone := noConjuncts rfl
      change conjuncts = true at alone
      subst alone
      obtain ⟨before, last, combined, reads⟩ :=
        (Expression.disj left right).readsAs assignment disjuncts outer
      refine ⟨before, last, reads, ?_, fun notDisj => absurd rfl notDisj⟩
      rw [combined, Bool.bne_false, Bool.true_and]

/-- Between neighbours that let an expression be complete, one of the same value
that binds no looser is taken in alike. -/
theorem finish_alike {Other : Type} (assignment : Atom → Bool) (otherAssignment : Other → Bool)
    (first second : Expression Atom .disj)
    (sameValue : first.value assignment = second.value assignment)
    (tight : first.root ≤ second.root) (frame : Frame) (outer : List Frame)
    (after : List (Symbol Other)) (notNegated : first.root ≠ .atom → frame.negated = false)
    (noConjuncts : first.root = .disj → frame.conjuncts = true)
    (notConj : first.root = .disj → after.head? ≠ some .conj) :
    ((Reader.operand frame outer).run assignment first.symbols).bind
        (Reader.finish otherAssignment · after) =
      ((Reader.operand frame outer).run assignment second.symbols).bind
        (Reader.finish otherAssignment · after) := by
  have notNegatedSecond (notAtom : second.root ≠ .atom) : frame.negated = false := by
    apply notNegated
    intro isAtom
    rw [isAtom] at tight
    exact notAtom (second.root.eq_atom_of_le tight)
  have disjOfDisj (isDisj : second.root = .disj) : first.root = .disj := by
    rw [isDisj] at tight
    exact first.root.eq_disj_of_le tight
  obtain ⟨before, last, reads, combined, apart⟩ :=
    first.run_complete assignment frame outer notNegated noConjuncts
  obtain ⟨beforeSecond, lastSecond, readsSecond, combinedSecond, apartSecond⟩ :=
    second.run_complete assignment frame outer notNegatedSecond
      (fun isDisj => noConjuncts (disjOfDisj isDisj))
  rw [reads, readsSecond, Option.bind_some, Option.bind_some]
  by_cases isDisj : first.root = .disj
  · apply Reader.finish_operator_congr
    · rw [combined, combinedSecond, sameValue]
    · exact notConj isDisj
  · obtain ⟨beforeEq, lastEq⟩ := apart isDisj
    obtain ⟨beforeSecondEq, lastSecondEq⟩ :=
      apartSecond (fun secondDisj => isDisj (disjOfDisj secondDisj))
    rw [beforeEq, lastEq, beforeSecondEq, lastSecondEq, sameValue]

end Expression

/-! ### Replacements by an identity -/

def Rule.SlotsBound (rule : Rule) : Prop :=
  ∀ slot, .atom (.slot slot) ∈ rule.replacement → .atom (.slot slot) ∈ rule.pattern

/-- A rule whose sides are expressions without a run, equal in value whatever
letters the slots stand for, and whose replacement binds no looser than its
pattern. -/
structure Rule.IsIdentity (rule : Rule) : Prop where
  pattern_noRun : Element.run ∉ rule.pattern
  replacement_noRun : Element.run ∉ rule.replacement
  pattern_wellFormed : WellFormed rule.pattern
  replacement_wellFormed : WellFormed rule.replacement
  bound : rule.SlotsBound
  equivalent : ∀ letters : Slot → Letter,
    Equivalent ((Bindings.ofLetters letters).fill rule.pattern)
      ((Bindings.ofLetters letters).fill rule.replacement)
  tight : rule.strength ≤ Strength.of rule.replacement

namespace Rule

theorem admits_iff (strength : Strength) (previous next : Option Token) :
    strength.admits previous next = true ↔
      (strength ≠ .atom → previous ≠ some .neg) ∧
        (strength = .disj → previous ≠ some .conj ∧ next ≠ some .conj) := by
  cases strength with
  | atom => simp [Strength.admits]
  | conj => simp [Strength.admits]
  | disj => simp [Strength.admits, and_assoc]

theorem WritesOut.exists_letters {rule : Rule} {first second before after : List Token}
    {bindings : Bindings} (written : rule.WritesOut first second before after bindings)
    (identity : rule.IsIdentity) :
    ∃ letters : Slot → Letter,
      first = before ++ ((Bindings.ofLetters letters).fill rule.pattern ++ after) ∧
      second = before ++ ((Bindings.ofLetters letters).fill rule.replacement ++ after) := by
  let letters : Slot → Letter := fun slot => (bindings.letters slot).getD .a
  have sameSlot (slot : Slot) (occurs : .atom (.slot slot) ∈ rule.pattern) :
      bindings.letters slot = (Bindings.ofLetters letters).letters slot := by
    obtain ⟨letter, isLetter⟩ := written.bound slot occurs
    change bindings.letters slot = some ((bindings.letters slot).getD .a)
    rw [isLetter, Option.getD_some]
  have samePattern := Bindings.fill_congr bindings (.ofLetters letters) rule.pattern
    (fun member => absurd member identity.pattern_noRun) sameSlot
  have sameReplacement := Bindings.fill_congr bindings (.ofLetters letters) rule.replacement
    (fun member => absurd member identity.replacement_noRun)
    (fun slot occurs => sameSlot slot (identity.bound slot occurs))
  refine ⟨letters, ?_, ?_⟩
  · rw [written.first_eq, samePattern]
  · rw [written.second_eq, sameReplacement]

theorem IsIdentity.oneRun {rule : Rule} (identity : rule.IsIdentity) :
    rule.pattern.count Element.run ≤ 1 := by
  rw [List.count_eq_zero.mpr identity.pattern_noRun]
  exact Nat.zero_le 1

theorem IsIdentity.value_eq {rule : Rule} (identity : rule.IsIdentity)
    (pattern replacement : Expression Placeholder .disj) (patternEq : pattern.symbols = rule.pattern)
    (replacementEq : replacement.symbols = rule.replacement) (assignment : Name → Bool)
    (letters : Slot → Letter) :
    pattern.value (slotAssignment assignment letters) =
      replacement.value (slotAssignment assignment letters) := by
  have sameRead := (identity.equivalent letters).readAlike assignment
  rw [Bindings.read_fill_ofLetters _ _ _ identity.pattern_noRun,
    Bindings.read_fill_ofLetters _ _ _ identity.replacement_noRun, ← patternEq, ← replacementEq,
    pattern.read_symbols, replacement.read_symbols] at sameRead
  exact Option.some.inj sameRead

theorem IsIdentity.readAlike {rule : Rule} (identity : rule.IsIdentity)
    {first second : List Token} (replaced : rule.Replaces first second) :
    ReadAlike first second := by
  obtain ⟨before, after, bindings, written⟩ := replaced.writesOut identity.oneRun
  obtain ⟨letters, rfl, rfl⟩ := written.exists_letters identity
  obtain ⟨pattern, patternEq⟩ := identity.pattern_wellFormed
  obtain ⟨replacement, replacementEq⟩ := identity.replacement_wellFormed
  obtain ⟨notNeg, notConj⟩ := (admits_iff _ _ _).mp written.admitted
  have patternStrength : rule.strength = pattern.root := by
    rw [strength, ← patternEq, pattern.strength_symbols]
  have tight : pattern.root ≤ replacement.root := by
    rw [← patternStrength, ← replacement.strength_symbols, replacementEq]
    exact identity.tight
  rw [patternStrength] at notNeg notConj
  intro assignment
  unfold read
  rw [Reader.finish_append, Reader.finish_append]
  cases reached : Reader.start.run assignment before with
  | none => rfl
  | some reader =>
      have patternRun := Bindings.run_fill_ofLetters assignment letters reader rule.pattern
        identity.pattern_noRun
      have replacementRun := Bindings.run_fill_ofLetters assignment letters reader
        rule.replacement identity.replacement_noRun
      rw [Option.bind_some, Option.bind_some, Reader.finish_append, Reader.finish_append,
        patternRun, replacementRun, ← patternEq, ← replacementEq]
      cases reader with
      | operator disjuncts conjuncts outer =>
          rw [pattern.run_operator, replacement.run_operator]
      | operand frame outer =>
          apply pattern.finish_alike _ _ replacement
          · exact identity.value_eq pattern replacement patternEq replacementEq assignment letters
          · exact tight
          · intro notAtom
            exact (Reader.frame_of_getLast assignment before frame outer reached
              (notNeg notAtom)).1
          · intro isDisj
            have notAtom : pattern.root ≠ .atom := by
              rw [isDisj]
              exact Strength.noConfusion
            exact (Reader.frame_of_getLast assignment before frame outer reached
              (notNeg notAtom)).2 (notConj isDisj).1
          · intro isDisj
            exact (notConj isDisj).2

theorem IsIdentity.unmatched_eq {rule : Rule} (identity : rule.IsIdentity) :
    unmatched rule.pattern = unmatched rule.replacement :=
  identity.pattern_wellFormed.balanced.trans identity.replacement_wellFormed.balanced.symm

end Rule

/-! ### Truth tables -/

def tableRow (x y z : Bool) : Placeholder → Bool
  | .slot .x => x
  | .slot .y => y
  | .slot .z => z
  | .run => false

theorem slotAssignment_eq_tableRow (assignment : Name → Bool) (letters : Slot → Letter) :
    slotAssignment assignment letters =
      tableRow (assignment (.letter (letters .x))) (assignment (.letter (letters .y)))
        (assignment (.letter (letters .z))) := by
  funext placeholder
  rcases placeholder with (_ | _ | _) | _ <;> rfl

def distinctLetters : Slot → Letter
  | .x => .a
  | .y => .b
  | .z => .c

def rowAssignment (x y z : Bool) : Name → Bool
  | .letter .a => x
  | .letter .b => y
  | .letter .c => z
  | .word _ => false

theorem slotAssignment_rowAssignment (x y z : Bool) :
    slotAssignment (rowAssignment x y z) distinctLetters = tableRow x y z :=
  slotAssignment_eq_tableRow _ _

namespace Rule

def SameTable (rule : Rule) : Prop :=
  ∀ x y z, read (tableRow x y z) rule.pattern = read (tableRow x y z) rule.replacement

instance (rule : Rule) : Decidable rule.SameTable :=
  inferInstanceAs (Decidable (∀ x y z, read (tableRow x y z) rule.pattern =
    read (tableRow x y z) rule.replacement))

theorem equivalent_iff_sameTable (rule : Rule) (patternNoRun : Element.run ∉ rule.pattern)
    (replacementNoRun : Element.run ∉ rule.replacement) (wellFormed : WellFormed rule.pattern) :
    (∀ letters : Slot → Letter, Equivalent ((Bindings.ofLetters letters).fill rule.pattern)
      ((Bindings.ofLetters letters).fill rule.replacement)) ↔ rule.SameTable := by
  constructor
  · intro equivalent x y z
    have alike := (equivalent distinctLetters).readAlike (rowAssignment x y z)
    rwa [Bindings.read_fill_ofLetters _ _ _ patternNoRun,
      Bindings.read_fill_ofLetters _ _ _ replacementNoRun, slotAssignment_rowAssignment] at alike
  · intro sameTable letters
    have alike : ReadAlike ((Bindings.ofLetters letters).fill rule.pattern)
        ((Bindings.ofLetters letters).fill rule.replacement) := by
      intro assignment
      rw [Bindings.read_fill_ofLetters _ _ _ patternNoRun,
        Bindings.read_fill_ofLetters _ _ _ replacementNoRun, slotAssignment_eq_tableRow]
      exact sameTable _ _ _
    apply alike.equivalent
    rw [← read_isSome_iff (fun _ => false), Bindings.read_fill_ofLetters _ _ _ patternNoRun,
      read_isSome_iff]
    exact wellFormed

instance (p : Slot → Prop) [DecidablePred p] : Decidable (∀ slot, p slot) :=
  decidable_of_iff (p .x ∧ p .y ∧ p .z)
    ⟨fun ⟨x, y, z⟩ slot => by cases slot <;> assumption, fun all => ⟨all .x, all .y, all .z⟩⟩

instance (rule : Rule) : Decidable rule.SlotsBound :=
  inferInstanceAs (Decidable (∀ slot, .atom (.slot slot) ∈ rule.replacement →
    .atom (.slot slot) ∈ rule.pattern))

theorem isIdentity_iff (rule : Rule) :
    rule.IsIdentity ↔ Element.run ∉ rule.pattern ∧ Element.run ∉ rule.replacement ∧
      WellFormed rule.pattern ∧ WellFormed rule.replacement ∧ rule.SlotsBound ∧
      rule.SameTable ∧ rule.strength ≤ Strength.of rule.replacement := by
  constructor
  · intro identity
    have sameTable := (rule.equivalent_iff_sameTable identity.pattern_noRun
      identity.replacement_noRun identity.pattern_wellFormed).mp identity.equivalent
    exact ⟨identity.pattern_noRun, identity.replacement_noRun, identity.pattern_wellFormed,
      identity.replacement_wellFormed, identity.bound, sameTable, identity.tight⟩
  · rintro ⟨patternNoRun, replacementNoRun, patternWellFormed, replacementWellFormed, bound,
      sameTable, tight⟩
    have equivalent := (rule.equivalent_iff_sameTable patternNoRun replacementNoRun
      patternWellFormed).mpr sameTable
    exact ⟨patternNoRun, replacementNoRun, patternWellFormed, replacementWellFormed, bound,
      equivalent, tight⟩

instance (rule : Rule) : Decidable rule.IsIdentity :=
  decidable_of_iff _ rule.isIdentity_iff.symm

end Rule

end BoolSimplify
