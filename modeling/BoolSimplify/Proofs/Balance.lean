/-
Parentheses across concatenations.

What is left over of the parentheses of two lists together depends only on what
is left over of each.  From this follow the laws of balanced lists: a balanced
list and a group in the same list are apart or nested, and balanced lists are
exactly the lists that a forest writes.
-/

import BoolSimplify.Engine.Nested
import BoolSimplify.Expression
import BoolSimplify.Group
import BoolSimplify.Group.Balance

namespace BoolSimplify

variable {Atom : Type}

/-! ### Unmatched parentheses -/

theorem Symbol.opening_or_closing_or_plain (symbol : Symbol Atom) :
    symbol = .opening ∨ symbol = .closing ∨ symbol.isParenthesis = false := by
  cases symbol with
  | opening => exact .inl rfl
  | closing => exact .inr (.inl rfl)
  | conj => exact .inr (.inr rfl)
  | disj => exact .inr (.inr rfl)
  | neg => exact .inr (.inr rfl)
  | truth value => exact .inr (.inr rfl)
  | atom name => exact .inr (.inr rfl)

theorem Symbol.opening_ne_closing : (.opening : Symbol Atom) ≠ .closing := by
  intro same
  cases same

namespace Unmatched

/-- What is left over of two lists, one after the other.  Openings of the first
are matched with closings of the second. -/
def join (left right : Unmatched) : Unmatched :=
  ⟨left.closings + (right.closings - left.openings),
    right.openings + (left.openings - right.closings)⟩

theorem zero_join (right : Unmatched) : zero.join right = right := by
  simp only [join, zero, Nat.sub_zero, Nat.zero_add, Nat.zero_sub, Nat.add_zero]

theorem step_join (before : Unmatched) (symbol : Symbol Atom) (after : Unmatched) :
    (before.step symbol).join after = before.join ((zero.step symbol).join after) := by
  cases symbol with
  | opening =>
      simp only [step, join, zero, Unmatched.mk.injEq]
      omega
  | closing =>
      obtain ⟨closings, openings⟩ := before
      cases openings with
      | zero =>
          simp only [step, join, zero, Unmatched.mk.injEq]
          omega
      | succ openings =>
          simp only [step, join, zero, Unmatched.mk.injEq]
          omega
  | conj => exact congrArg before.join (zero_join after).symm
  | disj => exact congrArg before.join (zero_join after).symm
  | neg => exact congrArg before.join (zero_join after).symm
  | truth value => exact congrArg before.join (zero_join after).symm
  | atom name => exact congrArg before.join (zero_join after).symm

theorem step_of_not_parenthesis (before : Unmatched) (symbol : Symbol Atom)
    (plain : symbol.isParenthesis = false) : before.step symbol = before := by
  cases symbol with
  | opening => cases plain
  | closing => cases plain
  | conj => rfl
  | disj => rfl
  | neg => rfl
  | truth value => rfl
  | atom name => rfl

end Unmatched

theorem foldl_step_eq_join (before : Unmatched) (symbols : List (Symbol Atom)) :
    symbols.foldl Unmatched.step before = before.join (unmatched symbols) := by
  induction symbols generalizing before with
  | nil =>
      simp only [List.foldl_nil, unmatched, Unmatched.join, Unmatched.zero, Nat.zero_sub,
        Nat.add_zero, Nat.sub_zero, Nat.zero_add]
  | cons symbol rest ih =>
      have single : unmatched (symbol :: rest) =
          (Unmatched.zero.step symbol).join (unmatched rest) := ih _
      rw [List.foldl_cons, ih, single, Unmatched.step_join]

theorem unmatched_append (left right : List (Symbol Atom)) :
    unmatched (left ++ right) = (unmatched left).join (unmatched right) := by
  rw [unmatched, List.foldl_append]
  exact foldl_step_eq_join _ right

theorem openings_append (left right : List (Symbol Atom)) :
    (unmatched (left ++ right)).openings =
      (unmatched right).openings + ((unmatched left).openings - (unmatched right).closings) :=
  congrArg Unmatched.openings (unmatched_append left right)

theorem unmatched_cons (symbol : Symbol Atom) (rest : List (Symbol Atom)) :
    unmatched (symbol :: rest) = (Unmatched.zero.step symbol).join (unmatched rest) :=
  unmatched_append [symbol] rest

theorem unmatched_opening (rest : List (Symbol Atom)) :
    unmatched (.opening :: rest) = Unmatched.join ⟨0, 1⟩ (unmatched rest) :=
  unmatched_cons .opening rest

theorem unmatched_closing (rest : List (Symbol Atom)) :
    unmatched (.closing :: rest) = Unmatched.join ⟨1, 0⟩ (unmatched rest) :=
  unmatched_cons .closing rest

theorem closes_opening (depth : Nat) (rest : List (Symbol Atom)) :
    unmatched (.opening :: rest) = ⟨depth, 0⟩ ↔ unmatched rest = ⟨depth + 1, 0⟩ := by
  rw [unmatched_opening]
  cases unmatched rest with
  | mk closings openings =>
      simp only [Unmatched.join, Unmatched.mk.injEq]
      omega

theorem closes_closing (depth : Nat) (rest : List (Symbol Atom)) :
    unmatched (.closing :: rest) = ⟨depth + 1, 0⟩ ↔ unmatched rest = ⟨depth, 0⟩ := by
  rw [unmatched_closing]
  cases unmatched rest with
  | mk closings openings =>
      simp only [Unmatched.join, Unmatched.mk.injEq]
      omega

theorem unmatched_plain {symbol : Symbol Atom} (plain : symbol.isParenthesis = false)
    (rest : List (Symbol Atom)) : unmatched (symbol :: rest) = unmatched rest := by
  rw [unmatched_cons, Unmatched.step_of_not_parenthesis _ _ plain, Unmatched.zero_join]

theorem count_unmatched [DecidableEq Atom] (symbols : List (Symbol Atom)) :
    symbols.count .closing + (unmatched symbols).openings =
      symbols.count .opening + (unmatched symbols).closings := by
  induction symbols with
  | nil => rfl
  | cons symbol rest ih =>
      rcases symbol.opening_or_closing_or_plain with rfl | rfl | plain
      · rw [unmatched_opening, List.count_cons_self, List.count_cons_of_ne Symbol.opening_ne_closing]
        simp only [Unmatched.join]
        omega
      · rw [unmatched_closing, List.count_cons_self,
          List.count_cons_of_ne Symbol.opening_ne_closing.symm]
        simp only [Unmatched.join]
        omega
      · have notOpening : symbol ≠ .opening := by
          rintro rfl
          cases plain
        have notClosing : symbol ≠ .closing := by
          rintro rfl
          cases plain
        rw [unmatched_plain plain, List.count_cons_of_ne notOpening,
          List.count_cons_of_ne notClosing, ih]

theorem closings_take_le (symbols : List (Symbol Atom)) (count : Nat) :
    (unmatched (symbols.take count)).closings ≤ (unmatched symbols).closings := by
  have split := unmatched_append (symbols.take count) (symbols.drop count)
  rw [List.take_append_drop] at split
  rw [split]
  exact Nat.le_add_right _ _

theorem balanced_of_plain (symbols : List (Symbol Atom))
    (plain : ∀ symbol ∈ symbols, symbol.isParenthesis = false) : Balanced symbols := by
  induction symbols with
  | nil => rfl
  | cons symbol rest ih =>
      have restBalanced := ih (fun other member => plain other (List.mem_cons_of_mem symbol member))
      exact (unmatched_plain (plain symbol List.mem_cons_self) rest).trans restBalanced

/-! ### Balanced lists -/

namespace Balanced

theorem nil : Balanced ([] : List (Symbol Atom)) := rfl

theorem append {left right : List (Symbol Atom)} (leftBalanced : Balanced left)
    (rightBalanced : Balanced right) : Balanced (left ++ right) := by
  rw [Balanced, unmatched_append, leftBalanced, rightBalanced]
  rfl

theorem cons {symbol : Symbol Atom} {rest : List (Symbol Atom)}
    (plain : symbol.isParenthesis = false) (restBalanced : Balanced rest) :
    Balanced (symbol :: rest) :=
  (unmatched_plain plain rest).trans restBalanced

theorem group {inner : List (Symbol Atom)} (innerBalanced : Balanced inner) :
    Balanced (.opening :: inner ++ [.closing]) := by
  rw [Balanced, unmatched_append, unmatched_opening, innerBalanced]
  rfl

/-- Balanced parts can be exchanged for others without effect on the parentheses
around them. -/
theorem unmatched_replace {first second : List (Symbol Atom)}
    (same : unmatched first = unmatched second) (before after : List (Symbol Atom)) :
    unmatched (before ++ (first ++ after)) = unmatched (before ++ (second ++ after)) := by
  simp only [unmatched_append, same]

/-- The front of a balanced list closes no group that is opened before it. -/
theorem closings_of_append {left right : List (Symbol Atom)} (balanced : Balanced (left ++ right)) :
    (unmatched left).closings = 0 := by
  rw [Balanced, unmatched_append, Unmatched.join, Unmatched.zero, Unmatched.mk.injEq] at balanced
  omega

theorem openings_of_append {left right : List (Symbol Atom)} (balanced : Balanced (left ++ right)) :
    (unmatched right).openings = 0 := by
  rw [Balanced, unmatched_append, Unmatched.join, Unmatched.zero, Unmatched.mk.injEq] at balanced
  omega

theorem of_append_right {left right : List (Symbol Atom)} (balanced : Balanced (left ++ right))
    (leftBalanced : Balanced left) : Balanced right := by
  rwa [Balanced, unmatched_append, leftBalanced, Unmatched.zero_join] at balanced

end Balanced

theorem not_balanced_closing (rest : List (Symbol Atom)) : ¬Balanced (.closing :: rest) := by
  intro balanced
  have split : Balanced ([.closing] ++ rest) := balanced
  cases split.closings_of_append

theorem balanced_of_overlap {left middle right : List (Symbol Atom)}
    (leftBalanced : Balanced (left ++ middle)) (rightBalanced : Balanced (middle ++ right)) :
    Balanced middle := by
  have noClosings := rightBalanced.closings_of_append
  have noOpenings := leftBalanced.openings_of_append
  cases leftOver : unmatched middle with
  | mk closings openings =>
      rw [leftOver] at noClosings noOpenings
      change closings = 0 at noClosings
      change openings = 0 at noOpenings
      rw [Balanced, leftOver, noClosings, noOpenings, Unmatched.zero]

/-! ### Expressions -/

theorem Expression.balanced {strength : Strength} (expression : Expression Atom strength) :
    Balanced expression.symbols := by
  induction expression with
  | truth value => rfl
  | atom name => rfl
  | neg operand ih => exact ih.cons rfl
  | group inner ih => exact ih.group
  | unary operand ih => exact ih
  | conj left right ihLeft ihRight => exact ihLeft.append (ihRight.cons rfl)
  | clause conjunction ih => exact ih
  | disj left right ihLeft ihRight => exact ihLeft.append (ihRight.cons rfl)

theorem WellFormed.balanced {symbols : List (Symbol Atom)} (wellFormed : WellFormed symbols) :
    Balanced symbols := by
  rcases wellFormed with ⟨expression, rfl⟩
  exact expression.balanced

/-! ### Groups and balanced parts -/

/-- How a group `( inner )` lies to a part in the same list. -/
inductive GroupPlace (before part after outerBefore inner outerAfter : List (Symbol Atom)) : Prop where
  | behind (between : List (Symbol Atom))
      (outerBeforeEq : outerBefore = before ++ (part ++ between))
      (afterEq : after = between ++ .opening :: (inner ++ .closing :: outerAfter))
  | ahead (between : List (Symbol Atom))
      (beforeEq : before = outerBefore ++ .opening :: (inner ++ .closing :: between))
      (outerAfterEq : outerAfter = between ++ (part ++ after))
  | around (left right : List (Symbol Atom))
      (innerEq : inner = left ++ (part ++ right))
      (beforeEq : before = outerBefore ++ .opening :: left)
      (afterEq : after = right ++ .closing :: outerAfter)
  | within (left right : List (Symbol Atom))
      (partEq : part = left ++ .opening :: (inner ++ .closing :: right))
      (outerBeforeEq : outerBefore = before ++ left)
      (outerAfterEq : outerAfter = right ++ after)

private theorem groupPlace_of_part_first
    {part after inner outerAfter : List (Symbol Atom)} (before left : List (Symbol Atom))
    (partBalanced : Balanced part) (innerBalanced : Balanced inner)
    (same : part ++ after = left ++ .opening :: (inner ++ .closing :: outerAfter)) :
    GroupPlace before part after (before ++ left) inner outerAfter := by
  rcases List.append_eq_append_iff.mp same with ⟨between, rfl, afterEq⟩ | ⟨rest, rfl, restEq⟩
  · exact .behind between rfl afterEq
  · cases rest with
    | nil => exact .behind [] (by rw [List.append_nil, List.append_nil]) restEq.symm
    | cons symbol rest =>
        obtain ⟨rfl, tailEq⟩ := List.cons.inj restEq
        rcases List.append_eq_append_iff.mp tailEq with ⟨right, rfl, rightEq⟩ | ⟨missing, rfl, _⟩
        · cases right with
          | nil =>
              have leftOver := partBalanced.openings_of_append
              rw [List.append_nil, unmatched_opening, innerBalanced] at leftOver
              cases leftOver
          | cons symbol right =>
              obtain ⟨rfl, outerAfterEq⟩ := List.cons.inj rightEq
              exact .within left right rfl rfl outerAfterEq
        · have noClosings := innerBalanced.closings_of_append
          have leftOver := partBalanced.openings_of_append
          simp only [unmatched_opening, Unmatched.join, noClosings] at leftOver
          omega

private theorem groupPlace_of_group_first
    {part after left inner outerAfter : List (Symbol Atom)} (outerBefore : List (Symbol Atom))
    (partBalanced : Balanced part) (innerBalanced : Balanced inner)
    (same : left ++ (part ++ after) = inner ++ .closing :: outerAfter) :
    GroupPlace (outerBefore ++ .opening :: left) part after outerBefore inner outerAfter := by
  rcases List.append_eq_append_iff.mp same with ⟨rest, rfl, restEq⟩ | ⟨between, rfl, betweenEq⟩
  · rcases List.append_eq_append_iff.mp restEq with ⟨right, rfl, afterEq⟩ | ⟨missing, rfl, missingEq⟩
    · exact .around left right rfl rfl afterEq
    · cases missing with
      | nil => exact .around left [] (by rw [List.append_nil, List.append_nil]) rfl missingEq.symm
      | cons symbol missing =>
          obtain ⟨rfl, _⟩ := List.cons.inj missingEq
          have restBalanced := balanced_of_overlap innerBalanced partBalanced
          exact absurd (partBalanced.of_append_right restBalanced) (not_balanced_closing missing)
  · cases between with
    | nil =>
        have noPart : part ++ after = .closing :: outerAfter := betweenEq.symm
        cases part with
        | nil => exact .around (inner ++ []) [] (by simp only [List.append_nil]) rfl noPart
        | cons symbol part =>
            obtain ⟨rfl, _⟩ := List.cons.inj noPart
            exact absurd partBalanced (not_balanced_closing part)
    | cons symbol between =>
        obtain ⟨rfl, outerAfterEq⟩ := List.cons.inj betweenEq
        exact .ahead between rfl outerAfterEq

theorem Balanced.groupPlace {before part after outerBefore inner outerAfter : List (Symbol Atom)}
    (partBalanced : Balanced part) (innerBalanced : Balanced inner)
    (same : before ++ (part ++ after) =
      outerBefore ++ .opening :: (inner ++ .closing :: outerAfter)) :
    GroupPlace before part after outerBefore inner outerAfter := by
  rcases List.append_eq_append_iff.mp same with ⟨left, rfl, restEq⟩ | ⟨left, rfl, restEq⟩
  · exact groupPlace_of_part_first before left partBalanced innerBalanced restEq
  · cases left with
    | nil =>
        have first := groupPlace_of_part_first outerBefore [] partBalanced innerBalanced restEq.symm
        rw [List.append_nil] at first ⊢
        exact first
    | cons symbol left =>
        obtain ⟨rfl, tailEq⟩ := List.cons.inj restEq
        exact groupPlace_of_group_first outerBefore partBalanced innerBalanced tailEq.symm

/-! ### Operands -/

inductive Operand : List (Symbol Atom) → Prop where
  | atomic (symbol : Symbol Atom) (isAtomic : symbol.isAtomic = true) : Operand [symbol]
  | group (inner : List (Symbol Atom)) (balanced : Balanced inner) :
      Operand (.opening :: inner ++ [.closing])
  | neg (rest : List (Symbol Atom)) (operand : Operand rest) : Operand (.neg :: rest)

theorem closeFrom_plain {symbol : Symbol Atom} (plain : symbol.isParenthesis = false) (depth : Nat)
    (rest : List (Symbol Atom)) :
    closeFrom depth (symbol :: rest) = (closeFrom depth rest).map (· + 1) := by
  cases symbol with
  | opening => cases plain
  | closing => cases plain
  | conj => rfl
  | disj => rfl
  | neg => rfl
  | truth value => rfl
  | atom name => rfl

/-- The `)` that is found closes just the groups that were open, and all that were
opened before it. -/
theorem closeFrom_split (depth place : Nat) (symbols : List (Symbol Atom))
    (found : closeFrom (depth + 1) symbols = some place) :
    ∃ inner rest, symbols = inner ++ .closing :: rest ∧ inner.length = place ∧
      unmatched inner = ⟨depth, 0⟩ := by
  induction symbols generalizing depth place with
  | nil => cases found
  | cons symbol rest ih =>
      rcases symbol.opening_or_closing_or_plain with rfl | rfl | plain
      · obtain ⟨before, foundLater, rfl⟩ := Option.map_eq_some_iff.mp found
        obtain ⟨inner, after, rfl, rfl, leftOver⟩ := ih (depth + 1) before foundLater
        exact ⟨.opening :: inner, after, rfl, rfl, (closes_opening depth inner).mpr leftOver⟩
      · cases depth with
        | zero =>
            cases found
            exact ⟨[], rest, rfl, rfl, rfl⟩
        | succ depth =>
            have notLast : ¬depth + 1 + 1 ≤ 1 := by omega
            rw [closeFrom, if_neg notLast] at found
            obtain ⟨before, foundLater, rfl⟩ := Option.map_eq_some_iff.mp found
            obtain ⟨inner, after, rfl, rfl, leftOver⟩ := ih depth before foundLater
            exact ⟨.closing :: inner, after, rfl, rfl, (closes_closing depth inner).mpr leftOver⟩
      · rw [closeFrom_plain plain] at found
        obtain ⟨before, foundLater, rfl⟩ := Option.map_eq_some_iff.mp found
        obtain ⟨inner, after, rfl, rfl, leftOver⟩ := ih depth before foundLater
        exact ⟨symbol :: inner, after, rfl, rfl, (unmatched_plain plain inner).trans leftOver⟩

theorem operand_of_isOperand (symbols : List (Symbol Atom)) (single : isOperand symbols = true) :
    Operand symbols := by
  fun_induction isOperand symbols with
  | case1 rest ih => exact .neg rest (ih single)
  | case2 rest =>
      obtain ⟨inner, after, rfl, innerLength, innerBalanced⟩ :=
        closeFrom_split 0 _ rest (eq_of_beq single)
      rw [List.length_append, List.length_cons] at innerLength
      have nothingAfter : after = [] := List.length_eq_zero_iff.mp (by omega)
      subst nothingAfter
      exact .group inner innerBalanced
  | case3 symbol _ _ => exact .atomic symbol single
  | case4 => cases single

theorem Operand.balanced {symbols : List (Symbol Atom)} (operand : Operand symbols) :
    Balanced symbols := by
  induction operand with
  | atomic symbol isAtomic =>
      refine .cons ?_ .nil
      cases symbol with
      | truth value => rfl
      | atom name => rfl
      | opening | closing | conj | disj | neg => cases isAtomic
  | group inner balanced => exact balanced.group
  | neg rest operand ih => exact ih.cons rfl

theorem closeFrom_closing (depth : Nat) (inner rest : List (Symbol Atom))
    (closes : unmatched inner = ⟨depth, 0⟩) :
    closeFrom (depth + 1) (inner ++ .closing :: rest) = some inner.length := by
  induction inner generalizing depth with
  | nil =>
      cases closes
      rfl
  | cons symbol inner ih =>
      rw [List.cons_append]
      rcases symbol.opening_or_closing_or_plain with rfl | rfl | plain
      · rw [closeFrom, ih (depth + 1) ((closes_opening depth inner).mp closes)]
        rfl
      · cases depth with
        | zero => exact absurd closes (not_balanced_closing inner)
        | succ depth =>
            have notLast : ¬depth + 1 + 1 ≤ 1 := by omega
            rw [closeFrom, if_neg notLast, Nat.add_sub_cancel,
              ih depth ((closes_closing depth inner).mp closes)]
            rfl
      · rw [unmatched_plain plain] at closes
        rw [closeFrom_plain plain, ih depth closes]
        rfl

theorem closeFrom_eq_none_iff (depth : Nat) (symbols : List (Symbol Atom)) :
    closeFrom (depth + 1) symbols = none ↔ (unmatched symbols).closings ≤ depth := by
  induction symbols generalizing depth with
  | nil => exact iff_of_true rfl (Nat.zero_le depth)
  | cons symbol rest ih =>
      rcases symbol.opening_or_closing_or_plain with rfl | rfl | plain
      · rw [closeFrom, Option.map_eq_none_iff, ih, unmatched_opening]
        simp only [Unmatched.join]
        omega
      · rw [unmatched_closing]
        cases depth with
        | zero => simp [closeFrom, Unmatched.join]
        | succ depth =>
            have notLast : ¬depth + 1 + 1 ≤ 1 := by omega
            rw [closeFrom, if_neg notLast, Option.map_eq_none_iff, Nat.add_sub_cancel, ih]
            simp only [Unmatched.join]
            omega
      · rw [closeFrom_plain plain, Option.map_eq_none_iff, ih, unmatched_plain plain]

theorem isOperand_of_operand {symbols : List (Symbol Atom)} (operand : Operand symbols) :
    isOperand symbols = true := by
  induction operand with
  | atomic symbol isAtomic =>
      cases symbol with
      | truth value => rfl
      | atom name => rfl
      | opening => cases isAtomic
      | closing => cases isAtomic
      | conj => cases isAtomic
      | disj => cases isAtomic
      | neg => cases isAtomic
  | group inner balanced =>
      have found := closeFrom_closing 0 inner [] balanced
      rw [List.cons_append, isOperand, found, List.length_append, List.length_singleton,
        Nat.add_sub_cancel]
      exact beq_self_eq_true _
  | neg rest operand ih => exact ih

theorem asOperand_of_operand {symbols : List (Symbol Atom)} (operand : Operand symbols) :
    asOperand symbols = symbols :=
  if_pos (isOperand_of_operand operand)

theorem asOperand_of_not_operand {symbols : List (Symbol Atom)} (several : ¬Operand symbols) :
    asOperand symbols = .opening :: symbols ++ [.closing] :=
  if_neg (mt (operand_of_isOperand symbols) several)

theorem Balanced.asOperand {symbols : List (Symbol Atom)} (balanced : Balanced symbols) :
    Balanced (asOperand symbols) := by
  unfold BoolSimplify.asOperand
  split
  · exact balanced
  · exact balanced.group

/-! ### Forests -/

theorem Forest.balanced (forest : Forest) : Balanced forest.tokens := by
  induction forest with
  | empty => rfl
  | single token plain rest ih => exact ih.cons plain
  | group inner rest ihInner ihRest =>
      simpa only [tokens, List.append_assoc, List.nil_append, List.cons_append]
        using ihInner.group.append ihRest

def closeForests (forests : List Forest) : List Token :=
  forests.flatMap (.closing :: ·.tokens)

/-- What closes `depth` groups and leaves nothing over is a forest for the level of
each group and one for the level around them. -/
theorem exists_forests (depth : Nat) (tokens : List Token)
    (closes : unmatched tokens = ⟨depth, 0⟩) :
    ∃ first others, others.length = depth ∧
      tokens = Forest.tokens first ++ closeForests others := by
  induction tokens generalizing depth with
  | nil =>
      cases closes
      exact ⟨.empty, [], rfl, rfl⟩
  | cons token rest ih =>
      rcases token.opening_or_closing_or_plain with rfl | rfl | plain
      · obtain ⟨inner, others, othersLength, rfl⟩ :=
          ih (depth + 1) ((closes_opening depth rest).mp closes)
        cases others with
        | nil => cases othersLength
        | cons first others =>
            refine ⟨.group inner first, others, Nat.succ.inj othersLength, ?_⟩
            simp only [closeForests, List.flatMap_cons, Forest.tokens, List.cons_append,
              List.append_assoc]
      · cases depth with
        | zero => exact absurd closes (not_balanced_closing rest)
        | succ depth =>
            obtain ⟨first, others, othersLength, rfl⟩ :=
              ih depth ((closes_closing depth rest).mp closes)
            exact ⟨.empty, first :: others, congrArg (· + 1) othersLength, rfl⟩
      · rw [unmatched_plain plain] at closes
        obtain ⟨first, others, othersLength, rfl⟩ := ih depth closes
        exact ⟨.single token plain first, others, othersLength, rfl⟩

theorem Balanced.exists_forest {tokens : List Token} (balanced : Balanced tokens) :
    ∃ forest : Forest, forest.tokens = tokens := by
  obtain ⟨first, others, othersLength, tokensEq⟩ := exists_forests 0 tokens balanced
  cases List.length_eq_zero_iff.mp othersLength
  exact ⟨first, by rw [tokensEq, closeForests, List.flatMap_nil, List.append_nil]⟩

end BoolSimplify
