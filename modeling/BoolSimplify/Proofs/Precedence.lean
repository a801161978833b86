/-
The operator at the root of a parse.

A well-formed list is written by one expression only: its disjuncts stand between the `|`
outside all groups, and their operands between the `&`.  The main statement says that the
strength of the list tells how many of them there are, and that parentheses around a
balanced list make an operand of it, well formed or not.
-/

import BoolSimplify.Proofs.Strength
import BoolSimplify.Rule.Element

namespace BoolSimplify

variable {Atom : Type}

theorem intercalate_cons {α : Type} (sign : α) (part : List α) (parts : List (List α)) :
    [sign].intercalate (part :: parts) = part ++ parts.flatMap (sign :: ·) := by
  induction parts generalizing part with
  | nil => rw [List.intercalate_singleton, List.flatMap_nil, List.append_nil]
  | cons next parts ih =>
      rw [List.intercalate_cons_cons, ih, List.flatMap_cons, List.append_assoc]
      rfl

theorem intercalate_concat {α : Type} (sign : α) (parts : List (List α)) (last : List α)
    (someParts : parts ≠ []) :
    [sign].intercalate (parts ++ [last]) = [sign].intercalate parts ++ sign :: last := by
  obtain ⟨part, parts, rfl⟩ := List.exists_cons_of_ne_nil someParts
  rw [List.cons_append, intercalate_cons, intercalate_cons, List.flatMap_append,
    List.flatMap_singleton, List.append_assoc]

theorem flatMap_sign {α : Type} (sign : α) (parts : List (List α)) (someParts : parts ≠ []) :
    parts.flatMap (sign :: ·) = sign :: [sign].intercalate parts := by
  obtain ⟨part, parts, rfl⟩ := List.exists_cons_of_ne_nil someParts
  rw [intercalate_cons, List.flatMap_cons, List.cons_append]

/-! ### Disjuncts and operands -/

namespace Expression

/-- The operands of the operators outside all groups, from left to right.  Those of a
conjunction are its conjuncts. -/
def operands : {strength : Strength} → Expression Atom strength → List (Expression Atom .atom)
  | _, truth value => [truth value]
  | _, atom name => [atom name]
  | _, neg operand => [neg operand]
  | _, group inner => [group inner]
  | _, unary operand => [operand]
  | _, conj left right => left.operands ++ [right]
  | _, clause conjunction => conjunction.operands
  | _, disj left right => left.operands ++ right.operands

/-- The conjunctions between the `|` outside all groups, from left to right. -/
def disjuncts : {strength : Strength} → Expression Atom strength → List (Expression Atom .conj)
  | .atom, operand => [unary operand]
  | .conj, conjunction => [conjunction]
  | .disj, clause conjunction => [conjunction]
  | .disj, disj left right => left.disjuncts ++ [right]

theorem operands_of_atom (operand : Expression Atom .atom) : operand.operands = [operand] := by
  cases operand <;> rfl

theorem operands_ne_nil (conjunction : Expression Atom .conj) : conjunction.operands ≠ [] := by
  cases conjunction with
  | unary operand => exact List.cons_ne_nil _ _
  | conj left right => exact List.concat_ne_nil _ _

theorem disjuncts_ne_nil (expression : Expression Atom .disj) : expression.disjuncts ≠ [] := by
  cases expression with
  | clause conjunction => exact List.cons_ne_nil _ _
  | disj left right => exact List.concat_ne_nil _ _

theorem mem_operands_of_disjunct : (expression : Expression Atom .disj) →
    ∀ disjunct ∈ expression.disjuncts, ∀ operand ∈ disjunct.operands,
      operand ∈ expression.operands
  | clause conjunction => by
      intro disjunct isDisjunct operand member
      cases List.mem_singleton.mp isDisjunct
      exact member
  | disj left right => by
      intro disjunct isDisjunct operand member
      rcases List.mem_append.mp isDisjunct with inLeft | isRight
      · exact List.mem_append_left _
          (mem_operands_of_disjunct left disjunct inLeft operand member)
      · cases List.mem_singleton.mp isRight
        exact List.mem_append_right _ member

theorem symbols_conjunction : (conjunction : Expression Atom .conj) →
    conjunction.symbols = [.conj].intercalate (conjunction.operands.map symbols)
  | unary operand => List.intercalate_singleton.symm
  | conj left right => by
      have someOperands : left.operands.map symbols ≠ [] :=
        mt List.map_eq_nil_iff.mp left.operands_ne_nil
      rw [symbols, operands, List.map_append, List.map_singleton,
        intercalate_concat _ _ _ someOperands, ← symbols_conjunction left]

theorem symbols_disjunction : (expression : Expression Atom .disj) →
    expression.symbols = [.disj].intercalate (expression.disjuncts.map symbols)
  | clause conjunction => List.intercalate_singleton.symm
  | disj left right => by
      have someDisjuncts : left.disjuncts.map symbols ≠ [] :=
        mt List.map_eq_nil_iff.mp left.disjuncts_ne_nil
      rw [symbols, disjuncts, List.map_append, List.map_singleton,
        intercalate_concat _ _ _ someDisjuncts, ← symbols_disjunction left]

/-- A conjunction is determined by its operands. -/
theorem eq_of_operands : (first second : Expression Atom .conj) →
    first.operands = second.operands → first = second
  | unary first, unary second, same => congrArg unary (List.singleton_inj.mp same)
  | unary first, conj left right, same => by
      have split : [] ++ [first] = left.operands ++ [right] := same
      exact absurd (List.append_inj_left' split rfl).symm left.operands_ne_nil
  | conj left right, unary second, same => by
      have split : left.operands ++ [right] = [] ++ [second] := same
      exact absurd (List.append_inj_left' split rfl) left.operands_ne_nil
  | conj left right, conj otherLeft otherRight, same => by
      obtain ⟨sameLeft, sameRight⟩ := List.append_inj' same rfl
      rw [eq_of_operands left otherLeft sameLeft, List.singleton_inj.mp sameRight]

/-- A whole expression is determined by its disjuncts. -/
theorem eq_of_disjuncts : (first second : Expression Atom .disj) →
    first.disjuncts = second.disjuncts → first = second
  | clause first, clause second, same => congrArg clause (List.singleton_inj.mp same)
  | clause first, disj left right, same => by
      have split : [] ++ [first] = left.disjuncts ++ [right] := same
      exact absurd (List.append_inj_left' split rfl).symm left.disjuncts_ne_nil
  | disj left right, clause second, same => by
      have split : left.disjuncts ++ [right] = [] ++ [second] := same
      exact absurd (List.append_inj_left' split rfl) left.disjuncts_ne_nil
  | disj left right, disj otherLeft otherRight, same => by
      obtain ⟨sameLeft, sameRight⟩ := List.append_inj' same rfl
      rw [eq_of_disjuncts left otherLeft sameLeft, List.singleton_inj.mp sameRight]

end Expression

/-! ### Reading parts off a list -/

/-- What writes `part` at the front of a list writes no other part there, provided that the
list goes on with what ends a part. -/
def ReadOff {Part : Type} (write : Part → List (Symbol Atom))
    (Ends : List (Symbol Atom) → Prop) (part : Part) : Prop :=
  ∀ other rest otherRest, Ends rest → Ends otherRest →
    write part ++ rest = write other ++ otherRest → part = other ∧ rest = otherRest

section Joined

variable {Part : Type} {write : Part → List (Symbol Atom)} {sign : Symbol Atom}
  {Ends : List (Symbol Atom) → Prop}

theorem ends_of_sign (endsAtSign : ∀ rest, Ends (sign :: rest)) (parts : List (List (Symbol Atom)))
    (rest : List (Symbol Atom)) (ends : Ends rest) : Ends (parts.flatMap (sign :: ·) ++ rest) := by
  cases parts with
  | nil => exact ends
  | cons part parts =>
      rw [List.flatMap_cons, List.append_assoc]
      exact endsAtSign _

theorem ReadOff.signed (endsAtSign : ∀ rest, Ends (sign :: rest)) (parts others : List Part)
    (readOff : ∀ part ∈ parts, ReadOff write Ends part) (rest otherRest : List (Symbol Atom))
    (ends : Ends rest ∧ rest.head? ≠ some sign)
    (otherEnds : Ends otherRest ∧ otherRest.head? ≠ some sign)
    (same : (parts.map write).flatMap (sign :: ·) ++ rest =
      (others.map write).flatMap (sign :: ·) ++ otherRest) :
    parts = others ∧ rest = otherRest := by
  induction parts generalizing others with
  | nil =>
      cases others with
      | nil => exact ⟨rfl, same⟩
      | cons other others =>
          rw [List.map_nil, List.flatMap_nil, List.nil_append] at same
          exact absurd (congrArg List.head? same) ends.2
  | cons part parts ih =>
      cases others with
      | nil =>
          rw [List.map_nil, List.flatMap_nil, List.nil_append] at same
          exact absurd (congrArg List.head? same.symm) otherEnds.2
      | cons other others =>
          obtain ⟨here, later⟩ := List.forall_mem_cons.mp readOff
          simp only [List.map_cons, List.flatMap_cons, List.append_assoc, List.cons_append,
            List.cons.injEq, true_and] at same
          obtain ⟨rfl, sameRest⟩ := here other _ _ (ends_of_sign endsAtSign _ rest ends.1)
            (ends_of_sign endsAtSign _ otherRest otherEnds.1) same
          obtain ⟨rfl, sameEnd⟩ := ih others later sameRest
          exact ⟨rfl, sameEnd⟩

theorem ReadOff.joined (endsAtSign : ∀ rest, Ends (sign :: rest)) {parts others : List Part}
    (someParts : parts ≠ []) (someOthers : others ≠ [])
    (readOff : ∀ part ∈ parts, ReadOff write Ends part) {rest otherRest : List (Symbol Atom)}
    (ends : Ends rest ∧ rest.head? ≠ some sign)
    (otherEnds : Ends otherRest ∧ otherRest.head? ≠ some sign)
    (same : [sign].intercalate (parts.map write) ++ rest =
      [sign].intercalate (others.map write) ++ otherRest) :
    parts = others ∧ rest = otherRest := by
  apply ReadOff.signed endsAtSign parts others readOff rest otherRest ends otherEnds
  rw [flatMap_sign _ _ (mt List.map_eq_nil_iff.mp someParts),
    flatMap_sign _ _ (mt List.map_eq_nil_iff.mp someOthers)]
  exact congrArg (sign :: ·) same

end Joined

namespace Expression

abbrev OperandReadOff (operand : Expression Atom .atom) : Prop :=
  ReadOff symbols (fun _ => True) operand

theorem conjunction_readOff (conjunction : Expression Atom .conj)
    (readOff : ∀ operand ∈ conjunction.operands, OperandReadOff operand) :
    ReadOff symbols (fun rest => rest.head? ≠ some .conj) conjunction := by
  intro other rest otherRest ends otherEnds same
  rw [symbols_conjunction, symbols_conjunction] at same
  obtain ⟨sameOperands, sameRest⟩ := ReadOff.joined (fun _ => trivial)
    conjunction.operands_ne_nil other.operands_ne_nil readOff ⟨trivial, ends⟩
    ⟨trivial, otherEnds⟩ same
  exact ⟨conjunction.eq_of_operands other sameOperands, sameRest⟩

theorem disjunction_readOff (expression : Expression Atom .disj)
    (readOff : ∀ operand ∈ expression.operands, OperandReadOff operand) :
    ReadOff symbols (fun rest => rest.head? ≠ some .conj ∧ rest.head? ≠ some .disj) expression := by
  intro other rest otherRest ends otherEnds same
  rw [symbols_disjunction, symbols_disjunction] at same
  have disjunctsReadOff : ∀ disjunct ∈ expression.disjuncts,
      ReadOff symbols (fun rest => rest.head? ≠ some .conj) disjunct := by
    intro disjunct isDisjunct
    apply conjunction_readOff
    intro operand member
    exact readOff operand (expression.mem_operands_of_disjunct disjunct isDisjunct operand member)
  obtain ⟨sameDisjuncts, sameRest⟩ := ReadOff.joined (fun _ => by rw [List.head?_cons]; exact nofun)
    expression.disjuncts_ne_nil other.disjuncts_ne_nil disjunctsReadOff ends otherEnds same
  exact ⟨expression.eq_of_disjuncts other sameDisjuncts, sameRest⟩

/-- The first symbol of an operand tells its kind, and a group ends at the `)` behind the
disjunction in it. -/
theorem operands_readOff {strength : Strength} (expression : Expression Atom strength) :
    ∀ operand ∈ expression.operands, OperandReadOff operand := by
  induction expression with
  | truth value =>
      rw [operands, List.forall_mem_singleton]
      intro other rest otherRest _ _ same
      cases other with
      | truth other => cases same; exact ⟨rfl, rfl⟩
      | atom name => cases same
      | neg operand => cases same
      | group inner => cases same
  | atom name =>
      rw [operands, List.forall_mem_singleton]
      intro other rest otherRest _ _ same
      cases other with
      | truth value => cases same
      | atom other => cases same; exact ⟨rfl, rfl⟩
      | neg operand => cases same
      | group inner => cases same
  | neg operand ih =>
      rw [operands_of_atom, List.forall_mem_singleton] at ih
      rw [operands, List.forall_mem_singleton]
      intro other rest otherRest _ _ same
      cases other with
      | truth value => cases same
      | atom name => cases same
      | neg other =>
          obtain ⟨rfl, sameRest⟩ := ih other rest otherRest trivial trivial (List.cons.inj same).2
          exact ⟨rfl, sameRest⟩
      | group inner => cases same
  | group inner ih =>
      rw [operands, List.forall_mem_singleton]
      intro other rest otherRest _ _ same
      cases other with
      | truth value => cases same
      | atom name => cases same
      | neg operand => cases same
      | group other =>
          have ends (after : List (Symbol Atom)) :
              (Symbol.closing :: after).head? ≠ some .conj ∧
                (Symbol.closing :: after).head? ≠ some .disj := by
            rw [List.head?_cons]
            exact ⟨nofun, nofun⟩
          simp only [symbols, List.cons_append, List.append_assoc, List.nil_append,
            List.cons.injEq, true_and] at same
          obtain ⟨rfl, sameRest⟩ := inner.disjunction_readOff ih other _ _ (ends rest)
            (ends otherRest) same
          exact ⟨rfl, (List.cons.inj sameRest).2⟩
  | unary operand ih => rwa [operands_of_atom] at ih
  | conj left right ihLeft ihRight =>
      rw [operands_of_atom] at ihRight
      exact List.forall_mem_append.mpr ⟨ihLeft, ihRight⟩
  | clause conjunction ih => exact ih
  | disj left right ihLeft ihRight => exact List.forall_mem_append.mpr ⟨ihLeft, ihRight⟩

theorem eq_of_symbols (first second : Expression Atom .disj)
    (same : first.symbols = second.symbols) : first = second := by
  have whole : first.symbols ++ [] = second.symbols ++ [] := congrArg (· ++ []) same
  exact (first.disjunction_readOff first.operands_readOff second [] [] ⟨nofun, nofun⟩
    ⟨nofun, nofun⟩ whole).1

/-! ### The operator at the root -/

theorem two_le_operands (left : Expression Atom .conj) (right : Expression Atom .atom) :
    2 ≤ (conj left right).operands.length := by
  have someLeft := List.length_pos_iff.mpr left.operands_ne_nil
  rw [operands, List.length_append, List.length_singleton]
  exact Nat.succ_le_succ someLeft

theorem two_le_disjuncts (left : Expression Atom .disj) (right : Expression Atom .conj) :
    2 ≤ (disj left right).disjuncts.length := by
  have someLeft := List.length_pos_iff.mpr left.disjuncts_ne_nil
  rw [disjuncts, List.length_append, List.length_singleton]
  exact Nat.succ_le_succ someLeft

theorem disjuncts_ne_singleton (left : Expression Atom .disj) (right only : Expression Atom .conj) :
    (disj left right).disjuncts ≠ [only] := by
  intro single
  have several := two_le_disjuncts left right
  rw [single] at several
  exact Nat.not_succ_le_self 1 several

theorem root_eq_disj_iff (expression : Expression Atom .disj) :
    expression.root = .disj ↔ 2 ≤ expression.disjuncts.length := by
  cases expression with
  | disj left right => exact iff_of_true rfl (two_le_disjuncts left right)
  | clause conjunction =>
      refine iff_of_false ?_ (Nat.not_succ_le_self 1)
      cases conjunction <;> exact nofun

theorem root_eq_conj_iff (expression : Expression Atom .disj) :
    expression.root = .conj ↔
      ∃ only, expression.disjuncts = [only] ∧ 2 ≤ only.operands.length := by
  cases expression with
  | disj left right =>
      refine iff_of_false nofun ?_
      rintro ⟨only, single, _⟩
      exact disjuncts_ne_singleton left right only single
  | clause conjunction =>
      cases conjunction with
      | conj left right => exact iff_of_true rfl ⟨_, rfl, two_le_operands left right⟩
      | unary operand =>
          refine iff_of_false nofun ?_
          rintro ⟨only, single, several⟩
          cases single
          exact Nat.not_succ_le_self 1 several

theorem root_eq_atom_iff (expression : Expression Atom .disj) :
    expression.root = .atom ↔
      ∃ only operand, expression.disjuncts = [only] ∧ only.operands = [operand] := by
  cases expression with
  | disj left right =>
      refine iff_of_false nofun ?_
      rintro ⟨only, _, single, _⟩
      exact disjuncts_ne_singleton left right only single
  | clause conjunction =>
      cases conjunction with
      | unary operand => exact iff_of_true rfl ⟨_, operand, rfl, rfl⟩
      | conj left right =>
          refine iff_of_false nofun ?_
          rintro ⟨only, operand, single, alone⟩
          cases single
          have several := two_le_operands left right
          rw [alone] at several
          exact Nat.not_succ_le_self 1 several

end Expression

theorem Strength.of_group (symbols : List (Symbol Atom)) (balanced : Balanced symbols) :
    Strength.of (.opening :: symbols ++ [.closing]) = .atom :=
  ofDepth_group symbols [] balanced

/-- A well-formed list of elements has one parse, which divides it at its operators outside all
groups, and its strength is the operator at the root of the parse: `|` for several disjuncts,
`&` for a single one of several operands, and none for a single operand.  Parentheses around
balanced elements hide all operators among them. -/
theorem strength_follows_parse :
    (∀ elements : List Element, WellFormed elements →
      ∃ expression : Expression Placeholder .disj,
        (expression.symbols = elements ∧
          ∀ other : Expression Placeholder .disj, other.symbols = elements → other = expression) ∧
        (elements = [.disj].intercalate (expression.disjuncts.map Expression.symbols) ∧
          ∀ disjunct ∈ expression.disjuncts,
            disjunct.symbols = [.conj].intercalate (disjunct.operands.map Expression.symbols)) ∧
        (Strength.of elements = .disj ↔ 2 ≤ expression.disjuncts.length) ∧
        (Strength.of elements = .conj ↔
          ∃ only, expression.disjuncts = [only] ∧ 2 ≤ only.operands.length) ∧
        (Strength.of elements = .atom ↔
          ∃ only operand, expression.disjuncts = [only] ∧ only.operands = [operand])) ∧
      ∀ elements : List Element, Balanced elements →
        Strength.of (.opening :: elements ++ [.closing]) = .atom := by
  refine ⟨?_, Strength.of_group⟩
  rintro elements ⟨expression, rfl⟩
  rw [expression.strength_symbols]
  refine ⟨expression, ⟨rfl, fun other same => other.eq_of_symbols expression same⟩,
    ⟨expression.symbols_disjunction, ?_⟩, expression.root_eq_disj_iff,
    expression.root_eq_conj_iff, expression.root_eq_atom_iff⟩
  exact fun disjunct _ => disjunct.symbols_conjunction

/-- `~(X | Y) & E` -/
def negatedGroupParse : Expression Placeholder .disj :=
  let inner : Expression Placeholder .disj :=
    .disj (.clause (.unary (.atom (.slot .x)))) (.unary (.atom (.slot .y)))
  .clause (.conj (.unary (.neg (.group inner))) (.atom .run))

theorem strength_follows_parse_group :
    let elements : List Element := [.neg, .opening, .x, .disj, .y, .closing, .conj, .run]
    let garbled : List Element := [.disj, .opening, .conj, .closing, .x, .y]
    WellFormed elements ∧ Strength.of elements = .conj ∧
      Balanced garbled ∧ Strength.of (.opening :: garbled ++ [.closing]) = .atom := by
  intro elements garbled
  have wellFormed : WellFormed elements := ⟨negatedGroupParse, rfl⟩
  have balanced : Balanced garbled := by decide
  obtain ⟨parsed, enclosed⟩ := strength_follows_parse
  obtain ⟨expression, ⟨_, unique⟩, _, _, isConj, _⟩ := parsed elements wellFormed
  cases unique negatedGroupParse rfl
  exact ⟨wellFormed, isConj.mpr ⟨_, rfl, by decide⟩, balanced, enclosed garbled balanced⟩

end BoolSimplify
