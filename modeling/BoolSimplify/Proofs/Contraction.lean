/-
Contractions of literals.

A rule without parentheses joins two literals with the operator between them to one
literal, or takes a `~` in.  Such contractions overlap in one way only: three
literals with the same operator between them, where the middle one can be joined
with either of the others.  The main statement says that two contractions of one
list lead to the same list, or are one more contraction away from it.
-/

import BoolSimplify.Proofs.Catalog

namespace BoolSimplify

/-! ### Literals -/

inductive Literal where
  | letter (negated : Bool) (letter : Letter)
  | truth (value : Bool)
  deriving DecidableEq, Repr

inductive Connective where
  | conj
  | disj
  deriving DecidableEq, Repr

namespace Literal

def tokens : Literal → List Token
  | letter false known => [.letter known]
  | letter true known => [.neg, .letter known]
  | truth value => [.truth value]

/-- What is left of a literal behind a `~` that can be taken in. -/
def takeNegation : Literal → Option Literal
  | letter true known => some (letter false known)
  | letter false _ => none
  | truth value => some (truth !value)

def all : List Literal :=
  [truth false, truth true] ++ Letter.all.flatMap fun known => [letter false known, letter true known]

theorem mem_all (literal : Literal) : literal ∈ all := by
  cases literal with
  | letter negated known => cases negated <;> cases known <;> decide
  | truth value => cases value <;> decide

end Literal

namespace Connective

def token : Connective → Token
  | conj => .conj
  | disj => .disj

def strength : Connective → Strength
  | conj => .conj
  | disj => .disj

/-- The truth value that drops out.  The other one decides. -/
def neutral : Connective → Bool
  | conj => true
  | disj => false

/-- The literal that two literals are joined to.  Two negated letters stay as they are,
even if they are the same. -/
def join? (connective : Connective) : Literal → Literal → Option Literal
  | .truth value, right => some (if value = connective.neutral then right else .truth value)
  | left, .truth value => some (if value = connective.neutral then left else .truth value)
  | .letter false left, .letter false right =>
      if left = right then some (.letter false left) else none
  | .letter true _, .letter true _ => none
  | .letter _ left, .letter _ right =>
      if left = right then some (.truth !connective.neutral) else none

def all : List Connective :=
  [conj, disj]

theorem mem_all (connective : Connective) : connective ∈ all := by
  cases connective <;> decide

theorem token_injective {first second : Connective} (same : first.token = second.token) :
    first = second := by
  cases first <;> cases second <;> first | rfl | cases same

theorem strength_ne_atom (connective : Connective) : connective.strength ≠ .atom := by
  cases connective <;> exact Strength.noConfusion

/-- Of three literals the middle one can be joined with either of the others.  Either
way the same two literals are left, or the same one after a second join. -/
theorem join_overlap_all : ∀ connective ∈ all, ∀ first ∈ Literal.all, ∀ middle ∈ Literal.all,
    ∀ last ∈ Literal.all,
      ∀ left ∈ connective.join? first middle, ∀ right ∈ connective.join? middle last,
        (left = first ∧ right = last) ∨
          (connective.join? left last).isSome ∧
            connective.join? left last = connective.join? first right := by
  decide +kernel

theorem join_overlap (connective : Connective) {first middle last left right : Literal}
    (joinedLeft : connective.join? first middle = some left)
    (joinedRight : connective.join? middle last = some right) :
    (left = first ∧ right = last) ∨
      ∃ result, connective.join? left last = some result ∧
        connective.join? first right = some result := by
  rcases join_overlap_all connective connective.mem_all first first.mem_all middle middle.mem_all
    last last.mem_all left joinedLeft right joinedRight with same | ⟨joins, alike⟩
  · exact .inl same
  · obtain ⟨result, joined⟩ := Option.isSome_iff_exists.mp joins
    exact .inr ⟨result, joined, alike.symm.trans joined⟩

end Connective

namespace Literal

theorem tokens_append_inj {first second : Literal} {firstRest secondRest : List Token}
    (same : first.tokens ++ firstRest = second.tokens ++ secondRest) :
    first = second ∧ firstRest = secondRest := by
  rcases first with ⟨_ | _, firstLetter⟩ | firstValue <;>
    rcases second with ⟨_ | _, secondLetter⟩ | secondValue <;>
      simp_all [tokens]

theorem eq_neg_of_split (literal : Literal) {left right : List Token}
    (split : literal.tokens = left ++ right) (leftNonempty : left ≠ []) (rightNonempty : right ≠ []) :
    left = [.neg] ∧ ∃ known, right = (letter false known).tokens := by
  obtain ⟨token, left, rfl⟩ := List.exists_cons_of_ne_nil leftNonempty
  obtain ⟨other, right, rfl⟩ := List.exists_cons_of_ne_nil rightNonempty
  have twoAtLeast := congrArg List.length split
  simp only [List.length_append, List.length_cons] at twoAtLeast
  rcases literal with ⟨_ | _, known⟩ | value
  · change 1 = _ at twoAtLeast
    omega
  · change 2 = _ at twoAtLeast
    have noLeft : left = [] := List.length_eq_zero_iff.mp (by omega)
    subst noLeft
    obtain ⟨rfl, restEq⟩ := List.cons.inj split
    exact ⟨rfl, known, restEq.symm⟩
  · change 1 = _ at twoAtLeast
    omega

theorem getLast_tokens (literal : Literal) (before : List Token) :
    (before ++ literal.tokens).getLast? ≠ some .neg ∧
      (before ++ literal.tokens).getLast? ≠ some .conj := by
  rcases literal with ⟨_ | _, known⟩ | value <;> simp [tokens]

theorem head_tokens (literal : Literal) (after : List Token) :
    (literal.tokens ++ after).head? ≠ some .conj ∧ (literal.tokens ++ after).head? ≠ some .disj := by
  rcases literal with ⟨_ | _, known⟩ | value <;> simp [tokens]

end Literal

/-! ### Neighbours of contractions -/

namespace Strength

theorem admits_of_previous {strength : Strength} {previous other next : Option Token}
    (admitted : strength.admits previous next = true) (notNeg : other ≠ some .neg)
    (notConj : other ≠ some .conj) : strength.admits other next = true := by
  rw [Rule.admits_iff] at admitted ⊢
  exact ⟨fun _ => notNeg, fun isDisj => ⟨notConj, (admitted.2 isDisj).2⟩⟩

theorem admits_of_next {strength : Strength} {previous next other : Option Token}
    (admitted : strength.admits previous next = true) (notConj : other ≠ some .conj) :
    strength.admits previous other = true := by
  rw [Rule.admits_iff] at admitted ⊢
  exact ⟨admitted.1, fun isDisj => ⟨(admitted.2 isDisj).1, notConj⟩⟩

end Strength

/-! ### Contractions -/

/-- The literal that a list of tokens is contracted to, and how tight it must be
compared to its neighbours. -/
inductive Contracts : Strength → List Token → Literal → Prop where
  | join (connective : Connective) (left right result : Literal)
      (joined : connective.join? left right = some result) :
      Contracts connective.strength (left.tokens ++ connective.token :: right.tokens) result
  | negation (operand result : Literal) (taken : operand.takeNegation = some result) :
      Contracts .atom (.neg :: operand.tokens) result

namespace Contracts

variable {strength otherStrength : Strength} {consumed other : List Token}
  {result otherResult : Literal}

theorem of_literal (contracts : Contracts strength consumed result) {after rest : List Token}
    {literal : Literal} (same : consumed ++ after = literal.tokens ++ rest) :
    ∃ (connective : Connective) (right : Literal), strength = connective.strength ∧
      connective.join? literal right = some result ∧
      rest = connective.token :: (right.tokens ++ after) := by
  cases contracts with
  | join connective left right _ joined =>
      rw [List.append_assoc] at same
      obtain ⟨rfl, restEq⟩ := Literal.tokens_append_inj same
      exact ⟨connective, right, rfl, joined, restEq.symm⟩
  | negation operand _ taken =>
      rcases literal with ⟨_ | _, known⟩ | value
      · cases same
      · have sameRest : operand.tokens ++ after = (Literal.letter false known).tokens ++ rest :=
          (List.cons.inj same).2
        obtain ⟨rfl, _⟩ := Literal.tokens_append_inj sameRest
        cases taken
      · cases same

theorem head_ne (contracts : Contracts strength consumed result) (connective : Connective)
    {after rest : List Token} : consumed ++ after ≠ connective.token :: rest := by
  intro same
  cases contracts with
  | join other left right _ joined =>
      rw [List.append_assoc] at same
      have isHead := congrArg List.head? same
      have notHead := left.head_tokens (other.token :: right.tokens ++ after)
      cases connective with
      | conj => exact notHead.1 isHead
      | disj => exact notHead.2 isHead
  | negation operand _ taken => cases connective <;> cases same

theorem front_unique (contracts : Contracts strength consumed result)
    (otherContracts : Contracts otherStrength other otherResult) {after otherAfter : List Token}
    (same : consumed ++ after = other ++ otherAfter) :
    result = otherResult ∧ after = otherAfter := by
  cases contracts with
  | join connective left right _ joined =>
      rw [List.append_assoc] at same
      obtain ⟨otherConnective, otherRight, _, otherJoined, restEq⟩ :=
        otherContracts.of_literal same.symm
      obtain ⟨sameToken, sameRest⟩ := List.cons.inj restEq
      cases Connective.token_injective sameToken
      obtain ⟨rfl, sameAfter⟩ := Literal.tokens_append_inj sameRest
      exact ⟨Option.some.inj (joined.symm.trans otherJoined), sameAfter⟩
  | negation operand _ taken =>
      cases otherContracts with
      | join connective left right _ joined =>
          have negation := Contracts.negation operand result taken
          obtain ⟨connective, _, isAtom, _⟩ :=
            negation.of_literal (same.trans (List.append_assoc _ _ _))
          exact absurd isAtom.symm connective.strength_ne_atom
      | negation otherOperand _ otherTaken =>
          obtain ⟨rfl, sameAfter⟩ := Literal.tokens_append_inj (List.cons.inj same).2
          exact ⟨Option.some.inj (taken.symm.trans otherTaken), sameAfter⟩

theorem not_admitted_behind_neg (contracts : Contracts strength consumed result)
    {after rest before : List Token} {literal : Literal} {next : Option Token}
    (same : consumed ++ after = literal.tokens ++ rest)
    (admitted : strength.admits (before ++ [Symbol.neg]).getLast? next = true) : False := by
  obtain ⟨connective, _, rfl, _⟩ := contracts.of_literal same
  rw [List.getLast?_concat] at admitted
  exact ((Rule.admits_iff _ _ _).mp admitted).1 connective.strength_ne_atom rfl

/-- A contraction that starts within another one joins the last literal of it. -/
theorem overlap {front back : List Token} (contracts : Contracts strength (front ++ back) result)
    (otherContracts : Contracts otherStrength other otherResult)
    {before after otherAfter : List Token} (frontNonempty : front ≠ []) (backNonempty : back ≠ [])
    (same : other ++ otherAfter = back ++ after)
    (admitted : otherStrength.admits (before ++ front).getLast? otherAfter.head? = true) :
    ∃ (connective : Connective) (left right : Literal), strength = connective.strength ∧
      connective.join? left right = some result ∧ front = left.tokens ++ [connective.token] ∧
      back = right.tokens := by
  have notWithin (literal : Literal) (earlier first last : List Token)
      (split : literal.tokens = first ++ last) (firstNonempty : first ≠ []) (lastNonempty : last ≠ [])
      (frontEq : front = earlier ++ first) (backEq : ∃ rest, back = last ++ rest) : False := by
    obtain ⟨rfl, known, rfl⟩ := literal.eq_neg_of_split split firstNonempty lastNonempty
    obtain ⟨rest, rfl⟩ := backEq
    rw [List.append_assoc] at same
    rw [frontEq, ← List.append_assoc] at admitted
    exact otherContracts.not_admitted_behind_neg same admitted
  generalize whole : front ++ back = consumed at contracts
  cases contracts with
  | join connective left right _ joined =>
      rcases List.append_eq_append_iff.mp whole with ⟨rest, leftEq, backEq⟩ | ⟨rest, frontEq, restEq⟩
      · by_cases restEmpty : rest = []
        · rw [restEmpty, List.nil_append] at backEq
          rw [backEq] at same
          exact absurd same (otherContracts.head_ne connective)
        · exact (notWithin left [] front rest leftEq frontNonempty restEmpty rfl ⟨_, backEq⟩).elim
      · cases rest with
        | nil =>
            rw [List.nil_append] at restEq
            rw [← restEq] at same
            exact absurd same (otherContracts.head_ne connective)
        | cons token rest =>
            obtain ⟨rfl, rightEq⟩ := List.cons.inj restEq
            by_cases restEmpty : rest = []
            · rw [restEmpty] at frontEq rightEq
              exact ⟨connective, left, right, rfl, joined, frontEq, rightEq.symm⟩
            · refine (notWithin right (left.tokens ++ [connective.token]) rest back rightEq restEmpty
                backNonempty ?_ ⟨[], (List.append_nil back).symm⟩).elim
              rw [frontEq, List.append_assoc, List.singleton_append]
  | negation operand _ taken =>
      obtain ⟨token, front, rfl⟩ := List.exists_cons_of_ne_nil frontNonempty
      obtain ⟨rfl, operandEq⟩ := List.cons.inj whole
      change front ++ back = operand.tokens at operandEq
      by_cases frontEmpty : front = []
      · rw [frontEmpty, List.nil_append] at operandEq
        rw [frontEmpty] at admitted
        rw [operandEq] at same
        exact (otherContracts.not_admitted_behind_neg same admitted).elim
      · exact (notWithin operand [.neg] front back operandEq.symm frontEmpty backNonempty rfl
          ⟨[], (List.append_nil back).symm⟩).elim

end Contracts

/-- One contraction between neighbours that do not bind tighter. -/
inductive Contraction : List Token → List Token → Prop where
  | intro (before after : List Token) {strength : Strength} {consumed : List Token}
      {result : Literal} (contracts : Contracts strength consumed result)
      (admitted : strength.admits before.getLast? after.head? = true) :
      Contraction (before ++ (consumed ++ after)) (before ++ (result.tokens ++ after))

namespace Contraction

/-! ### Two contractions of one list -/

variable {strength otherStrength : Strength} {consumed other : List Token}
  {result otherResult : Literal}

theorem diamond_apart (contracts : Contracts strength consumed result)
    (otherContracts : Contracts otherStrength other otherResult)
    (before between after : List Token)
    (admitted : strength.admits before.getLast? (between ++ (other ++ after)).head? = true)
    (otherAdmitted :
      otherStrength.admits (before ++ (consumed ++ between)).getLast? after.head? = true) :
    ∃ last, Contraction (before ++ (result.tokens ++ (between ++ (other ++ after)))) last ∧
      Contraction (before ++ (consumed ++ (between ++ (otherResult.tokens ++ after)))) last := by
  have admittedLater : strength.admits before.getLast?
      (between ++ (otherResult.tokens ++ after)).head? = true := by
    cases between with
    | nil => exact Strength.admits_of_next admitted (otherResult.head_tokens after).1
    | cons token between => exact admitted
  have otherAdmittedLater : otherStrength.admits
      (before ++ (result.tokens ++ between)).getLast? after.head? = true := by
    rcases List.eq_nil_or_concat between with rfl | ⟨earlier, token, rfl⟩
    · rw [List.append_nil]
      obtain ⟨notNeg, notConj⟩ := result.getLast_tokens before
      exact Strength.admits_of_previous otherAdmitted notNeg notConj
    · simp only [List.concat_eq_append, ← List.append_assoc, List.getLast?_concat]
        at otherAdmitted ⊢
      exact otherAdmitted
  refine ⟨before ++ (result.tokens ++ (between ++ (otherResult.tokens ++ after))), ?_, ?_⟩
  · have contracted := Contraction.intro (before ++ (result.tokens ++ between)) after otherContracts
      otherAdmittedLater
    simpa only [List.append_assoc] using contracted
  · exact .intro before _ contracts admittedLater

theorem diamond_joins (connective otherConnective : Connective)
    {first middle last left right : Literal} (joined : connective.join? first middle = some left)
    (otherJoined : otherConnective.join? middle last = some right) (before after : List Token)
    (admitted : connective.strength.admits before.getLast?
      (otherConnective.token :: (last.tokens ++ after)).head? = true)
    (otherAdmitted : otherConnective.strength.admits
      (before ++ (first.tokens ++ [connective.token])).getLast? after.head? = true) :
    before ++ (left.tokens ++ otherConnective.token :: (last.tokens ++ after)) =
        before ++ (first.tokens ++ connective.token :: (right.tokens ++ after)) ∨
      ∃ result,
        Contraction (before ++ (left.tokens ++ otherConnective.token :: (last.tokens ++ after)))
          result ∧
        Contraction (before ++ (first.tokens ++ connective.token :: (right.tokens ++ after)))
          result := by
  rw [← List.append_assoc, List.getLast?_concat] at otherAdmitted
  rw [Rule.admits_iff] at admitted otherAdmitted
  have sameConnective : connective = otherConnective := by
    cases connective with
    | conj =>
        cases otherConnective with
        | conj => rfl
        | disj => exact absurd rfl (otherAdmitted.2 rfl).1
    | disj =>
        cases otherConnective with
        | conj => exact absurd rfl (admitted.2 rfl).2
        | disj => rfl
  subst sameConnective
  have outerAdmitted : connective.strength.admits before.getLast? after.head? = true :=
    (Rule.admits_iff _ _ _).mpr
      ⟨admitted.1, fun isDisj => ⟨(admitted.2 isDisj).1, (otherAdmitted.2 isDisj).2⟩⟩
  rcases connective.join_overlap joined otherJoined with ⟨rfl, rfl⟩ | ⟨result, joinedLeft, joinedRight⟩
  · exact .inl rfl
  · refine .inr ⟨before ++ (result.tokens ++ after), ?_, ?_⟩
    · simpa only [List.append_assoc, List.cons_append]
        using Contraction.intro before after (.join connective _ _ _ joinedLeft) outerAdmitted
    · simpa only [List.append_assoc, List.cons_append]
        using Contraction.intro before after (.join connective _ _ _ joinedRight) outerAdmitted

theorem diamond_ordered (contracts : Contracts strength consumed result)
    (otherContracts : Contracts otherStrength other otherResult)
    (before front after otherAfter : List Token)
    (same : consumed ++ after = front ++ (other ++ otherAfter))
    (admitted : strength.admits before.getLast? after.head? = true)
    (otherAdmitted : otherStrength.admits (before ++ front).getLast? otherAfter.head? = true) :
    before ++ (result.tokens ++ after) = before ++ (front ++ (otherResult.tokens ++ otherAfter)) ∨
      ∃ last, Contraction (before ++ (result.tokens ++ after)) last ∧
        Contraction (before ++ (front ++ (otherResult.tokens ++ otherAfter))) last := by
  rcases List.append_eq_append_iff.mp same with ⟨between, rfl, rfl⟩ | ⟨back, rfl, backEq⟩
  · rw [List.append_assoc]
    exact .inr (diamond_apart contracts otherContracts before between otherAfter admitted
      otherAdmitted)
  · by_cases frontEmpty : front = []
    · subst frontEmpty
      obtain ⟨rfl, rfl⟩ := contracts.front_unique otherContracts same
      exact .inl rfl
    · by_cases backEmpty : back = []
      · subst backEmpty
        rw [List.append_nil] at contracts
        rw [List.nil_append] at backEq
        subst backEq
        have apart := diamond_apart contracts otherContracts before [] otherAfter admitted
          (by rwa [List.append_nil])
        exact .inr apart
      · obtain ⟨connective, first, middle, rfl, joined, rfl, rfl⟩ :=
          contracts.overlap otherContracts frontEmpty backEmpty backEq otherAdmitted
        obtain ⟨otherConnective, last, rfl, otherJoined, rfl⟩ := otherContracts.of_literal backEq
        have joins := diamond_joins connective otherConnective joined otherJoined before otherAfter
          admitted otherAdmitted
        simpa only [List.append_assoc, List.singleton_append] using joins

/-- Two contractions of one list lead to the same list, or one more of each does. -/
theorem diamond {tokens left right : List Token} (toLeft : Contraction tokens left)
    (toRight : Contraction tokens right) :
    left = right ∨ ∃ last, Contraction left last ∧ Contraction right last := by
  cases toLeft with
  | @intro before after strength consumed result contracts admitted =>
      generalize whole : before ++ (consumed ++ after) = tokens at toRight
      cases toRight with
      | @intro otherBefore otherAfter otherStrength other otherResult otherContracts otherAdmitted =>
          rcases List.append_eq_append_iff.mp whole with ⟨front, rfl, same⟩ | ⟨front, rfl, same⟩
          · rw [List.append_assoc]
            exact diamond_ordered contracts otherContracts before front after otherAfter same admitted
              otherAdmitted
          · rw [List.append_assoc]
            rcases diamond_ordered otherContracts contracts otherBefore front otherAfter after same
              otherAdmitted admitted with sameLists | ⟨last, fromRight, fromLeft⟩
            · exact .inl sameLists.symm
            · exact .inr ⟨last, fromLeft, fromRight⟩

end Contraction

end BoolSimplify
