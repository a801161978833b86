/-
Where groups stand.

The groups of a list can be found in one reading that keeps the positions of the open
parentheses, or by asking for the match of each `(`.  The main statements say that both
find the parentheses that enclose a balanced list, whether the rest of the list is
balanced or not, and that the reading finds them in the order of their ends.
-/

import BoolSimplify.Proofs.Balance

namespace BoolSimplify

variable {Atom : Type}

/-- The symbols behind the one at `first` and in front of the one at `last`. -/
def between (symbols : List (Symbol Atom)) (first last : Nat) : List (Symbol Atom) :=
  (symbols.take last).drop (first + 1)

/-- The `(` at `first` and the `)` at `last` enclose a balanced list. -/
def IsGroup (symbols : List (Symbol Atom)) (first last : Nat) : Prop :=
  ∃ before inner after, symbols = before ++ .opening :: (inner ++ .closing :: after) ∧
    before.length = first ∧ first + 1 + inner.length = last ∧ Balanced inner

theorem between_group (before inner after : List (Symbol Atom)) :
    between (before ++ .opening :: (inner ++ .closing :: after)) before.length
      (before.length + 1 + inner.length) = inner := by
  have regroup : before ++ .opening :: (inner ++ .closing :: after) =
      ((before ++ [.opening]) ++ inner) ++ .closing :: after := by
    simp only [List.append_assoc, List.cons_append, List.nil_append]
  have opened : (before ++ [Symbol.opening]).length = before.length + 1 := by
    rw [List.length_append, List.length_singleton]
  rw [between, regroup, ← opened, ← List.length_append, List.take_left, List.drop_left]

/-! ### The match of a parenthesis -/

theorem matchingClose_eq_some_iff (symbols : List (Symbol Atom)) (first last : Nat) :
    matchingClose symbols first = some last ↔ IsGroup symbols first last := by
  constructor
  · intro found
    unfold matchingClose at found
    split at found
    · rename_i rest behind
      obtain ⟨place, foundBehind, lastEq⟩ := Option.map_eq_some_iff.mp found
      obtain ⟨inner, after, restEq, rfl, balanced⟩ := closeFrom_split 0 place rest foundBehind
      have within : first < symbols.length := by
        have lengths := congrArg List.length behind
        rw [List.length_drop, List.length_cons] at lengths
        omega
      refine ⟨symbols.take first, inner, after, ?_, ?_, lastEq, balanced⟩
      · rw [← restEq, ← behind, List.take_append_drop]
      · exact List.length_take_of_le (Nat.le_of_lt within)
    · cases found
  · rintro ⟨before, inner, after, rfl, rfl, rfl, balanced⟩
    rw [matchingClose, List.drop_left]
    change (closeFrom 1 (inner ++ .closing :: after)).map _ = _
    rw [closeFrom_closing 0 inner after balanced]
    rfl

/-! ### One reading for all groups -/

theorem groupsFrom_plain {symbol : Symbol Atom} (plain : symbol.isParenthesis = false)
    (position : Nat) (opened : List Nat) (rest : List (Symbol Atom)) :
    groupsFrom position opened (symbol :: rest) = groupsFrom (position + 1) opened rest := by
  cases symbol with
  | opening => cases plain
  | closing => cases plain
  | conj => rfl
  | disj => rfl
  | neg => rfl
  | truth value => rfl
  | atom name => rfl

/-- The positions of open parentheses, the innermost first.  What stands behind each of
them is balanced as far as it was read. -/
inductive Opened : (before : List (Symbol Atom)) → (positions : List Nat) → Prop where
  | outside (before : List (Symbol Atom)) : Opened before []
  | inside {before inner : List (Symbol Atom)} {positions : List Nat}
      (around : Opened before positions) (balanced : Balanced inner) :
      Opened (before ++ .opening :: inner) (before.length :: positions)

theorem Opened.append {before after : List (Symbol Atom)} {positions : List Nat}
    (opened : Opened before positions) (balanced : Balanced after) :
    Opened (before ++ after) positions := by
  cases opened with
  | outside => exact .outside _
  | inside around innerBalanced =>
      rw [List.append_assoc, List.cons_append]
      exact .inside around (innerBalanced.append balanced)

theorem isGroup_of_mem_groupsFrom (before symbols : List (Symbol Atom)) (positions : List Nat)
    (opened : Opened before positions) (first last : Nat)
    (member : (first, last) ∈ groupsFrom before.length positions symbols) :
    IsGroup (before ++ symbols) first last := by
  induction symbols generalizing before positions with
  | nil => cases member
  | cons symbol rest ih =>
      have oneFurther : before.length + 1 = (before ++ [symbol]).length := by
        rw [List.length_append, List.length_singleton]
      have onward : before ++ symbol :: rest = before ++ [symbol] ++ rest := by
        rw [List.append_assoc, List.singleton_append]
      rcases symbol.opening_or_closing_or_plain with rfl | rfl | plain
      · rw [groupsFrom, oneFurther] at member
        rw [onward]
        exact ih _ _ (.inside opened .nil) member
      · cases opened with
        | outside =>
            rw [groupsFrom, oneFurther] at member
            rw [onward]
            exact ih _ _ (.outside _) member
        | @inside outer inner positions around balanced =>
            rcases List.mem_cons.mp member with here | later
            · obtain ⟨rfl, rfl⟩ := Prod.mk.inj here
              refine ⟨outer, inner, rest, ?_, rfl, ?_, balanced⟩
              · rw [List.append_assoc, List.cons_append]
              · rw [List.length_append, List.length_cons]
                omega
            · rw [oneFurther] at later
              rw [onward]
              refine ih _ _ ?_ later
              rw [List.append_assoc]
              exact around.append balanced.group
      · rw [groupsFrom_plain plain, oneFurther] at member
        rw [onward]
        exact ih _ _ (opened.append (Balanced.nil.cons plain)) member

/-- The `)` behind what closes the innermost groups ends the next group around them. -/
theorem mem_groupsFrom_closing (inner rest : List (Symbol Atom)) (position start : Nat)
    (opened others : List Nat) (closes : unmatched inner = ⟨opened.length, 0⟩) :
    (start, position + inner.length) ∈
      groupsFrom position (opened ++ start :: others) (inner ++ .closing :: rest) := by
  induction inner generalizing position opened with
  | nil =>
      cases opened with
      | nil => exact List.mem_cons_self
      | cons last opened => cases closes
  | cons symbol inner ih =>
      have place : position + (symbol :: inner).length = position + 1 + inner.length := by
        rw [List.length_cons]
        omega
      rw [List.cons_append, place]
      rcases symbol.opening_or_closing_or_plain with rfl | rfl | plain
      · exact ih (position + 1) (position :: opened) ((closes_opening _ inner).mp closes)
      · cases opened with
        | nil => exact absurd closes (not_balanced_closing inner)
        | cons last opened =>
            exact List.mem_cons_of_mem _
              (ih (position + 1) opened ((closes_closing _ inner).mp closes))
      · rw [unmatched_plain plain] at closes
        rw [groupsFrom_plain plain]
        exact ih (position + 1) opened closes

theorem mem_groupsFrom_group (before inner rest : List (Symbol Atom)) (position : Nat)
    (opened : List Nat) (balanced : Balanced inner) :
    (position + before.length, position + before.length + 1 + inner.length) ∈
      groupsFrom position opened (before ++ .opening :: (inner ++ .closing :: rest)) := by
  induction before generalizing position opened with
  | nil => exact mem_groupsFrom_closing inner rest (position + 1) position [] opened balanced
  | cons symbol before ih =>
      have place : position + (symbol :: before).length = position + 1 + before.length := by
        rw [List.length_cons]
        omega
      rw [List.cons_append, place]
      rcases symbol.opening_or_closing_or_plain with rfl | rfl | plain
      · exact ih (position + 1) (position :: opened)
      · cases opened with
        | nil => exact ih (position + 1) []
        | cons last opened => exact List.mem_cons_of_mem _ (ih (position + 1) opened)
      · rw [groupsFrom_plain plain]
        exact ih (position + 1) opened

theorem mem_groups_iff (symbols : List (Symbol Atom)) (first last : Nat) :
    (first, last) ∈ groups symbols ↔ matchingClose symbols first = some last := by
  rw [matchingClose_eq_some_iff]
  constructor
  · exact isGroup_of_mem_groupsFrom [] symbols [] (.outside []) first last
  · rintro ⟨before, inner, after, rfl, rfl, rfl, balanced⟩
    have found := mem_groupsFrom_group before inner after 0 [] balanced
    rwa [Nat.zero_add] at found

theorem le_of_mem_groupsFrom (position : Nat) (opened : List Nat) (symbols : List (Symbol Atom)) :
    ∀ group ∈ groupsFrom position opened symbols, position ≤ group.2 := by
  induction symbols generalizing position opened with
  | nil => exact List.forall_mem_nil _
  | cons symbol rest ih =>
      have later (opened : List Nat) : ∀ group ∈ groupsFrom (position + 1) opened rest,
          position ≤ group.2 :=
        fun group member => Nat.le_of_succ_le (ih (position + 1) opened group member)
      rcases symbol.opening_or_closing_or_plain with rfl | rfl | plain
      · exact later _
      · cases opened with
        | nil => exact later []
        | cons start opened =>
            intro group member
            rcases List.mem_cons.mp member with rfl | inRest
            · exact Nat.le_refl position
            · exact later opened group inRest
      · rw [groupsFrom_plain plain]
        exact later opened

theorem groupsFrom_pairwise (position : Nat) (opened : List Nat) (symbols : List (Symbol Atom)) :
    (groupsFrom position opened symbols).Pairwise fun earlier later => earlier.2 < later.2 := by
  induction symbols generalizing position opened with
  | nil => exact .nil
  | cons symbol rest ih =>
      rcases symbol.opening_or_closing_or_plain with rfl | rfl | plain
      · exact ih _ _
      · cases opened with
        | nil => exact ih _ _
        | cons start opened =>
            exact .cons (le_of_mem_groupsFrom (position + 1) opened rest) (ih _ _)
      · rw [groupsFrom_plain plain]
        exact ih _ _

end BoolSimplify
