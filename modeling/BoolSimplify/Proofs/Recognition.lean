/-
What counting parentheses recognises.

The search for the end of a group counts the groups that are open, and takes one off at
each `)`.  Nothing is assumed about the tokens, so that the count could run out before the
search ends.  The main statement says that it never does, that the search accepts just the
groups whose inner parentheses pair up by their numbers, and that single operands are told
from other lists in the same way.
-/

import BoolSimplify.Proofs.Groups
import BoolSimplify.Token.Fragments
import Mathlib.Data.List.Induction

namespace BoolSimplify

variable {Atom : Type}

/-! ### Parentheses by their numbers -/

/-- No front of the list has more `)` than `(`, and the whole list has as many. -/
structure EvenlyMatched [DecidableEq Atom] (symbols : List (Symbol Atom)) : Prop where
  fronts : ∀ front, front <+: symbols → front.count .closing ≤ front.count .opening
  whole : symbols.count .closing = symbols.count .opening

section Counting

variable [DecidableEq Atom]

theorem fronts_of_closings {symbols : List (Symbol Atom)}
    (matched : (unmatched symbols).closings = 0) (front : List (Symbol Atom))
    (isFront : front <+: symbols) : front.count .closing ≤ front.count .opening := by
  have fewer := closings_take_le symbols front.length
  rw [← List.prefix_iff_eq_take.mp isFront] at fewer
  have counted := count_unmatched front
  omega

theorem closings_of_fronts (symbols : List (Symbol Atom))
    (fronts : ∀ front, front <+: symbols → front.count .closing ≤ front.count .opening) :
    (unmatched symbols).closings = 0 := by
  induction symbols using List.reverseRecOn with
  | nil => rfl
  | append_singleton before symbol ih =>
      have earlier := ih fun front isFront => fronts front (isFront.trans (List.prefix_append _ _))
      rw [unmatched_append, Unmatched.join, earlier, Nat.zero_add]
      rcases symbol.opening_or_closing_or_plain with rfl | rfl | plain
      · exact Nat.zero_sub _
      · have counted := count_unmatched before
        have fewer := fronts _ (List.prefix_refl _)
        rw [List.count_append, List.count_append, List.count_singleton_self,
          List.count_cons_of_ne Symbol.opening_ne_closing.symm, List.count_nil] at fewer
        have opened : 1 ≤ (unmatched before).openings := by omega
        exact Nat.sub_eq_zero_of_le opened
      · rw [unmatched_plain plain]
        exact Nat.zero_sub _

theorem balanced_iff_evenlyMatched (symbols : List (Symbol Atom)) :
    Balanced symbols ↔ EvenlyMatched symbols := by
  have counted := count_unmatched symbols
  constructor
  · intro balanced
    rw [balanced] at counted
    exact ⟨fronts_of_closings (congrArg Unmatched.closings balanced), counted⟩
  · rintro ⟨fronts, whole⟩
    have noClosings := closings_of_fronts symbols fronts
    have noOpenings : (unmatched symbols).openings = 0 := by omega
    calc
      unmatched symbols = ⟨(unmatched symbols).closings, (unmatched symbols).openings⟩ := rfl
      _ = .zero := by rw [noClosings, noOpenings]; rfl

end Counting

/-! ### Groups -/

/-- The symbol at `first` is `(`, the one at `last` behind it is `)`, and what stands between
them is evenly matched. -/
structure Encloses [DecidableEq Atom] (symbols : List (Symbol Atom)) (first last : Nat) : Prop where
  before : first < last
  within : last < symbols.length
  opens : symbols[first]? = some .opening
  closes : symbols[last]? = some .closing
  inner : EvenlyMatched (between symbols first last)

theorem split_at_pair {symbols : List (Symbol Atom)} {first last : Nat} {opened closed : Symbol Atom}
    (before : first < last) (opens : symbols[first]? = some opened)
    (closes : symbols[last]? = some closed) :
    symbols = symbols.take first ++
      opened :: (between symbols first last ++ closed :: symbols.drop (last + 1)) := by
  obtain ⟨firstWithin, rfl⟩ := List.getElem?_eq_some_iff.mp opens
  obtain ⟨lastWithin, rfl⟩ := List.getElem?_eq_some_iff.mp closes
  have behind : symbols.drop (first + 1) =
      between symbols first last ++ symbols.drop last := by
    have reaches : first + 1 ≤ (symbols.take last).length := by
      rw [List.length_take_of_le (Nat.le_of_lt lastWithin)]
      exact before
    rw [between, ← List.drop_append_of_le_length reaches, List.take_append_drop]
  rw [List.getElem_cons_drop, ← behind, List.getElem_cons_drop, List.take_append_drop]

theorem isGroup_iff_encloses [DecidableEq Atom] (symbols : List (Symbol Atom)) (first last : Nat) :
    IsGroup symbols first last ↔ Encloses symbols first last := by
  constructor
  · rintro ⟨before, inner, after, rfl, rfl, rfl, balanced⟩
    refine ⟨by omega, ?_, ?_, ?_, ?_⟩
    · simp only [List.length_append, List.length_cons]
      omega
    · rw [List.getElem?_append_right (Nat.le_refl _), Nat.sub_self]
      rfl
    · have front : (before ++ .opening :: inner).length = before.length + 1 + inner.length := by
        rw [List.length_append, List.length_cons]
        omega
      rw [← front, ← List.cons_append, ← List.append_assoc,
        List.getElem?_append_right (Nat.le_refl _), Nat.sub_self]
      rfl
    · rw [between_group]
      exact (balanced_iff_evenlyMatched inner).mp balanced
  · rintro ⟨before, within, opens, closes, inner⟩
    refine ⟨_, _, _, split_at_pair before opens closes, ?_, ?_,
      (balanced_iff_evenlyMatched _).mpr inner⟩
    · exact List.length_take_of_le (by omega)
    · rw [between, List.length_drop, List.length_take_of_le (Nat.le_of_lt within)]
      omega

/-! ### The counter of the search -/

/-- The search for the end of a group with a counter that must not fall below zero.  There is
no answer at all once a `)` would take it there. -/
def checkedClose : (depth position : Nat) → (symbols : List (Symbol Atom)) → Option (Option Nat)
  | _, _, [] => some none
  | depth, position, .opening :: rest => checkedClose (depth + 1) (position + 1) rest
  | depth, position, .closing :: rest =>
      match depth with
      | 0 => none
      | left + 1 =>
          if left = 0 then some (some position) else checkedClose left (position + 1) rest
  | depth, position, _ :: rest => checkedClose depth (position + 1) rest

example : checkedClose 0 5 [.conj, .closing, (.opening : Token)] = none := rfl

theorem checkedClose_plain {symbol : Symbol Atom} (plain : symbol.isParenthesis = false)
    (depth position : Nat) (rest : List (Symbol Atom)) :
    checkedClose depth position (symbol :: rest) = checkedClose depth (position + 1) rest := by
  cases symbol with
  | opening => cases plain
  | closing => cases plain
  | conj => rfl
  | disj => rfl
  | neg => rfl
  | truth value => rfl
  | atom name => rfl

/-- Within an open group the counter lasts to the end of the search. -/
theorem checkedClose_eq (depth position : Nat) (symbols : List (Symbol Atom)) :
    checkedClose (depth + 1) position symbols =
      some ((closeFrom (depth + 1) symbols).map (position + ·)) := by
  induction symbols generalizing depth position with
  | nil => rfl
  | cons symbol rest ih =>
      have shift (place : Option Nat) :
          (place.map (· + 1)).map (position + ·) = place.map (position + 1 + ·) := by
        rw [Option.map_map]
        refine congrArg (place.map ·) (funext fun steps => ?_)
        change position + (steps + 1) = position + 1 + steps
        omega
      rcases symbol.opening_or_closing_or_plain with rfl | rfl | plain
      · rw [checkedClose, ih, closeFrom, shift]
      · cases depth with
        | zero => rfl
        | succ depth =>
            rw [checkedClose, closeFrom, if_neg (by omega), if_neg (by omega), shift,
              Nat.add_sub_cancel, ih]
      · rw [checkedClose_plain plain, closeFrom_plain plain, ih, shift]

theorem checkedClose_drop {symbols : List (Symbol Atom)} {first : Nat}
    (opens : symbols[first]? = some .opening) :
    checkedClose 0 first (symbols.drop first) = some (matchingClose symbols first) := by
  obtain ⟨within, isOpening⟩ := List.getElem?_eq_some_iff.mp opens
  rw [matchingClose, List.drop_eq_getElem_cons within, isOpening]
  exact checkedClose_eq 0 (first + 1) _

/-! ### Operands -/

theorem operand_iff (symbols : List (Symbol Atom)) :
    Operand symbols ↔ ∃ count rest, symbols = List.replicate count .neg ++ rest ∧
      ((∃ symbol, rest = [symbol] ∧ symbol.isAtomic = true) ∨
        ∃ inner, rest = .opening :: inner ++ [.closing] ∧ Balanced inner) := by
  constructor
  · intro operand
    induction operand with
    | atomic symbol isAtomic => exact ⟨0, _, rfl, .inl ⟨symbol, rfl, isAtomic⟩⟩
    | group inner balanced => exact ⟨0, _, rfl, .inr ⟨inner, rfl, balanced⟩⟩
    | neg rest operand ih =>
        obtain ⟨count, last, rfl, ends⟩ := ih
        exact ⟨count + 1, last, rfl, ends⟩
  · rintro ⟨count, rest, rfl, ends⟩
    induction count with
    | zero =>
        rcases ends with ⟨symbol, rfl, isAtomic⟩ | ⟨inner, rfl, balanced⟩
        · exact .atomic symbol isAtomic
        · exact .group inner balanced
    | succ count ih => exact .neg _ ih

theorem isOperand_iff (symbols : List (Symbol Atom)) :
    isOperand symbols = true ↔ Operand symbols :=
  ⟨operand_of_isOperand symbols, isOperand_of_operand⟩

/-- The search finds a `)` just where it and the `(` enclose evenly matched tokens, of which
there is one at most, and its counter of open groups never falls below zero before.  A single
operand is any number of `~` before an atomic token or before a group that ends with the
tokens. -/
theorem parentheses_recognised (tokens : List Token) :
    (∀ first last, matchingClose tokens first = some last ↔ Encloses tokens first last) ∧
      (∀ first last other, Encloses tokens first last → Encloses tokens first other →
        last = other) ∧
      (∀ first, tokens[first]? = some .opening →
        checkedClose 0 first (tokens.drop first) = some (matchingClose tokens first)) ∧
      (isOperand tokens = true ↔ ∃ count rest, tokens = List.replicate count .neg ++ rest ∧
        ((∃ token, rest = [token] ∧ token.isAtomic = true) ∨
          ∃ inner, rest = .opening :: inner ++ [.closing] ∧ EvenlyMatched inner)) := by
  have found (first last : Nat) :
      matchingClose tokens first = some last ↔ Encloses tokens first last :=
    (matchingClose_eq_some_iff tokens first last).trans (isGroup_iff_encloses tokens first last)
  refine ⟨found, ?_, fun first => checkedClose_drop, ?_⟩
  · intro first last other encloses otherEncloses
    have same := ((found first last).mpr encloses).symm.trans ((found first other).mpr otherEncloses)
    exact Option.some.inj same
  · simp only [← balanced_iff_evenlyMatched]
    exact (isOperand_iff tokens).trans (operand_iff tokens)

theorem parentheses_recognised_unbalanced :
    let tokens := tokenize ") ~(A) | (B)) (C"
    matchingClose tokens 2 = some 4 ∧
      (Encloses tokens 2 4 ∧ ∀ last, Encloses tokens 2 last → last = 4) ∧
      (tokens[10]? = some .opening ∧ matchingClose tokens 10 = none) ∧
      checkedClose 0 10 (tokens.drop 10) = some none ∧ ∀ last, ¬Encloses tokens 10 last := by
  intro tokens
  obtain ⟨found, unique, counted, _⟩ := parentheses_recognised tokens
  have closed : matchingClose tokens 2 = some 4 := by decide +kernel
  have unclosed : matchingClose tokens 10 = none := by decide +kernel
  have opens : tokens[10]? = some .opening := by decide +kernel
  have encloses : Encloses tokens 2 4 := (found 2 4).mp closed
  refine ⟨closed, ⟨encloses, fun last other => unique 2 last 4 other encloses⟩,
    ⟨opens, unclosed⟩, ?_, ?_⟩
  · rw [counted 10 opens, unclosed]
  · intro last encloses
    cases unclosed.symm.trans ((found 10 last).mpr encloses)

end BoolSimplify
