/-
Reading a flat list of symbols as an expression.

A reader goes through the symbols from left to right and keeps one frame for
every open group.  It looks at nothing ahead: the value of an operand is taken
into its frame as soon as the operand is complete.

The main statements say that every expression is read to its value, and that a list
is read exactly when it is how some expression is written.  Hence an expression is
determined by its symbols as far as its value goes, and being well formed is decidable.
-/

import BoolSimplify.Expression

namespace BoolSimplify

variable {Atom : Type}

/-! ### The reader -/

/-- What has been read of one level while its next operand is due. -/
structure Frame where
  /-- The value of the disjuncts that are complete -/
  disjuncts : Bool
  /-- The value of the operands that the next one is in conjunction with -/
  conjuncts : Bool
  /-- Whether an odd number of `~` stands before the next operand -/
  negated : Bool
  deriving DecidableEq, Repr

/-- A place in an expression.  The frames belong to the open groups around it, the
innermost first. -/
inductive Reader where
  /-- An operand is due. -/
  | operand (frame : Frame) (outer : List Frame)
  /-- An operand was read, so that an operator or an end is due. -/
  | operator (disjuncts conjuncts : Bool) (outer : List Frame)
  deriving DecidableEq, Repr

namespace Frame

def fresh : Frame := ⟨false, true, false⟩

def take (frame : Frame) (value : Bool) (outer : List Frame) : Reader :=
  .operator frame.disjuncts (frame.conjuncts && (value != frame.negated)) outer

end Frame

namespace Reader

def start : Reader := .operand .fresh []

/-- Reads one symbol, unless it cannot stand here. -/
def step (assignment : Atom → Bool) : Reader → Symbol Atom → Option Reader
  | .operand frame outer, .neg => some (.operand { frame with negated := !frame.negated } outer)
  | .operand frame outer, .opening => some (.operand .fresh (frame :: outer))
  | .operand frame outer, .truth value => some (frame.take value outer)
  | .operand frame outer, .atom name => some (frame.take (assignment name) outer)
  | .operator disjuncts conjuncts outer, .conj => some (.operand ⟨disjuncts, conjuncts, false⟩ outer)
  | .operator disjuncts conjuncts outer, .disj =>
      some (.operand ⟨disjuncts || conjuncts, true, false⟩ outer)
  | .operator disjuncts conjuncts (frame :: outer), .closing =>
      some (frame.take (disjuncts || conjuncts) outer)
  | _, _ => none

def run (assignment : Atom → Bool) : Reader → List (Symbol Atom) → Option Reader
  | reader, [] => some reader
  | reader, symbol :: rest => (reader.step assignment symbol).bind (run assignment · rest)

def value? : Reader → Option Bool
  | .operator disjuncts conjuncts [] => some (disjuncts || conjuncts)
  | _ => none

def finish (assignment : Atom → Bool) (reader : Reader) (symbols : List (Symbol Atom)) :
    Option Bool :=
  (reader.run assignment symbols).bind value?

end Reader

/-- The value of a list of symbols under an assignment, none when the list is not well formed. -/
def read (assignment : Atom → Bool) (symbols : List (Symbol Atom)) : Option Bool :=
  Reader.start.finish assignment symbols

namespace Reader

theorem run_append (assignment : Atom → Bool) (reader : Reader)
    (left right : List (Symbol Atom)) :
    reader.run assignment (left ++ right) =
      (reader.run assignment left).bind (run assignment · right) := by
  induction left generalizing reader with
  | nil => rfl
  | cons symbol rest ih =>
      simp only [List.cons_append, run]
      cases reader.step assignment symbol with
      | none => rfl
      | some next => exact ih next

theorem finish_append (assignment : Atom → Bool) (reader : Reader)
    (left right : List (Symbol Atom)) :
    reader.finish assignment (left ++ right) =
      (reader.run assignment left).bind (finish assignment · right) := by
  unfold finish
  rw [run_append, Option.bind_assoc]

theorem finish_cons (assignment : Atom → Bool) (reader : Reader)
    (symbol : Symbol Atom) (rest : List (Symbol Atom)) :
    reader.finish assignment (symbol :: rest) =
      (reader.step assignment symbol).bind (finish assignment · rest) := by
  unfold finish
  rw [run, Option.bind_assoc]

end Reader

/-! ### Reading what an expression writes -/

namespace Expression

/-- How a reader takes in an expression.  An operand changes its frame alone.  A
conjunction does so when no `~` stands before it, and a disjunction at the start
of a level only, where its last disjunct stays open for further operands. -/
def ReadsAs (assignment : Atom → Bool) : {strength : Strength} → Expression Atom strength → Prop
  | .atom, operand => ∀ frame outer,
      (Reader.operand frame outer).run assignment operand.symbols =
        some (frame.take (operand.value assignment) outer)
  | .conj, conjunction => ∀ disjuncts conjuncts outer,
      (Reader.operand ⟨disjuncts, conjuncts, false⟩ outer).run assignment conjunction.symbols =
        some (.operator disjuncts (conjuncts && conjunction.value assignment) outer)
  | .disj, disjunction => ∀ disjuncts outer, ∃ before last,
      (before || last) = (disjuncts || disjunction.value assignment) ∧
        (Reader.operand ⟨disjuncts, true, false⟩ outer).run assignment disjunction.symbols =
          some (.operator before last outer)

theorem readsAs (assignment : Atom → Bool) {strength : Strength}
    (expression : Expression Atom strength) : expression.ReadsAs assignment := by
  induction expression with
  | truth value => exact fun frame outer => rfl
  | atom name => exact fun frame outer => rfl
  | neg operand ih =>
      intro frame outer
      have inner := ih { frame with negated := !frame.negated } outer
      simp only [symbols, Reader.run, Reader.step, Option.bind_some, inner, Frame.take, value]
      cases frame.negated <;> simp
  | group inner ih =>
      intro frame outer
      obtain ⟨before, last, combined, reads⟩ := ih false (frame :: outer)
      simp only [symbols, List.cons_append, Reader.run, Reader.step, Option.bind_some,
        Reader.run_append, Frame.fresh, reads, combined, value, Bool.false_or]
  | unary operand ih =>
      intro disjuncts conjuncts outer
      simpa only [Frame.take, Bool.bne_false, symbols, value]
        using ih ⟨disjuncts, conjuncts, false⟩ outer
  | conj left right ihLeft ihRight =>
      intro disjuncts conjuncts outer
      have second := ihRight ⟨disjuncts, conjuncts && left.value assignment, false⟩ outer
      simp only [symbols, Reader.run_append, ihLeft disjuncts conjuncts outer, Option.bind_some,
        Reader.run, Reader.step, second, Frame.take, value, Bool.bne_false, Bool.and_assoc]
  | clause conjunction ih =>
      intro disjuncts outer
      exact ⟨disjuncts, conjunction.value assignment, rfl, ih disjuncts true outer⟩
  | disj left right ihLeft ihRight =>
      intro disjuncts outer
      obtain ⟨before, last, combined, reads⟩ := ihLeft disjuncts outer
      refine ⟨before || last, right.value assignment, ?_, ?_⟩
      · rw [combined, value, Bool.or_assoc]
      · have second := ihRight (before || last) true outer
        simp only [symbols, Reader.run_append, reads, Option.bind_some, Reader.run, Reader.step,
          second, Bool.true_and]

theorem read_symbols (assignment : Atom → Bool) (expression : Expression Atom .disj) :
    read assignment expression.symbols = some (expression.value assignment) := by
  obtain ⟨before, last, combined, reads⟩ := expression.readsAs assignment false []
  unfold read Reader.finish Reader.start Frame.fresh
  rw [reads, Option.bind_some, Reader.value?, combined, Bool.false_or]

theorem run_operator (assignment : Atom → Bool) {strength : Strength}
    (expression : Expression Atom strength) (disjuncts conjuncts : Bool) (outer : List Frame) :
    (Reader.operator disjuncts conjuncts outer).run assignment expression.symbols = none := by
  induction expression with
  | truth value => rfl
  | atom name => rfl
  | neg operand ih => rfl
  | group inner ih => rfl
  | unary operand ih => exact ih
  | conj left right ihLeft ihRight =>
      simp only [symbols, Reader.run_append, ihLeft, Option.bind_none]
  | clause conjunction ih => exact ih
  | disj left right ihLeft ihRight =>
      simp only [symbols, Reader.run_append, ihLeft, Option.bind_none]

end Expression

/-! ### Writing what a reader has read -/

/-- What has been read of one level, as expressions. -/
structure Draft (Atom : Type) where
  disjuncts : Option (Expression Atom .disj)
  conjuncts : Option (Expression Atom .conj)
  negations : Nat

namespace Draft

def disjunctSymbols : Option (Expression Atom .disj) → List (Symbol Atom)
  | none => []
  | some disjuncts => disjuncts.symbols ++ [.disj]

def conjunctSymbols : Option (Expression Atom .conj) → List (Symbol Atom)
  | none => []
  | some conjuncts => conjuncts.symbols ++ [.conj]

def symbols (draft : Draft Atom) : List (Symbol Atom) :=
  disjunctSymbols draft.disjuncts ++ conjunctSymbols draft.conjuncts ++
    List.replicate draft.negations .neg

/-- The symbols before the innermost open group, when `drafts` are the levels
around it. -/
def outerSymbols : List (Draft Atom) → List (Symbol Atom)
  | [] => []
  | draft :: outer => outerSymbols outer ++ draft.symbols ++ [.opening]

def negate (operand : Expression Atom .atom) : Nat → Expression Atom .atom
  | 0 => operand
  | count + 1 => .neg (negate operand count)

theorem negate_symbols (operand : Expression Atom .atom) (count : Nat) :
    (negate operand count).symbols = List.replicate count .neg ++ operand.symbols := by
  induction count with
  | zero => rfl
  | succ count ih =>
      rw [negate, Expression.symbols, ih, List.replicate_succ, List.cons_append]

def extend (conjuncts : Option (Expression Atom .conj)) (operand : Expression Atom .atom) :
    Expression Atom .conj :=
  conjuncts.elim (.unary operand) (.conj · operand)

theorem extend_symbols (conjuncts : Option (Expression Atom .conj))
    (operand : Expression Atom .atom) :
    (extend conjuncts operand).symbols = conjunctSymbols conjuncts ++ operand.symbols := by
  cases conjuncts with
  | none => rfl
  | some conjunction =>
      simp only [extend, Option.elim, Expression.symbols, conjunctSymbols, List.append_assoc,
        List.singleton_append]

def close (disjuncts : Option (Expression Atom .disj)) (conjunction : Expression Atom .conj) :
    Expression Atom .disj :=
  disjuncts.elim (.clause conjunction) (.disj · conjunction)

theorem close_symbols (disjuncts : Option (Expression Atom .disj))
    (conjunction : Expression Atom .conj) :
    (close disjuncts conjunction).symbols =
      disjunctSymbols disjuncts ++ conjunction.symbols := by
  cases disjuncts with
  | none => rfl
  | some disjunction =>
      simp only [close, Option.elim, Expression.symbols, disjunctSymbols, List.append_assoc,
        List.singleton_append]

end Draft

namespace Reader

open Draft (disjunctSymbols outerSymbols)

/-- `symbols` can be written so that a reader is at this place behind them. -/
def Writes : Reader → List (Symbol Atom) → Prop
  | .operand _ outer, symbols => ∃ (drafts : List (Draft Atom)) (draft : Draft Atom),
      drafts.length = outer.length ∧ symbols = outerSymbols drafts ++ draft.symbols
  | .operator _ _ outer, symbols =>
      ∃ (drafts : List (Draft Atom)) (disjuncts : Option (Expression Atom .disj))
        (conjunction : Expression Atom .conj), drafts.length = outer.length ∧
          symbols = outerSymbols drafts ++ (disjunctSymbols disjuncts ++ conjunction.symbols)

theorem writes_take (frame : Frame) (value : Bool) (outer : List Frame)
    (drafts : List (Draft Atom)) (draft : Draft Atom) (operand : Expression Atom .atom)
    (sameLevel : drafts.length = outer.length) :
    (frame.take value outer).Writes (outerSymbols drafts ++ draft.symbols ++ operand.symbols) := by
  refine ⟨drafts, draft.disjuncts,
    Draft.extend draft.conjuncts (Draft.negate operand draft.negations), sameLevel, ?_⟩
  simp only [Draft.symbols, Draft.extend_symbols, Draft.negate_symbols, List.append_assoc]

theorem writes_step (assignment : Atom → Bool) (reader next : Reader)
    (symbols : List (Symbol Atom)) (symbol : Symbol Atom) (written : reader.Writes symbols)
    (stepped : reader.step assignment symbol = some next) :
    next.Writes (symbols ++ [symbol]) := by
  cases reader with
  | operand frame outer =>
      obtain ⟨drafts, draft, sameLevel, rfl⟩ := written
      cases symbol with
      | neg =>
          cases stepped
          refine ⟨drafts, { draft with negations := draft.negations + 1 }, sameLevel, ?_⟩
          simp only [Draft.symbols, List.replicate_succ', List.append_assoc]
      | opening =>
          cases stepped
          refine ⟨draft :: drafts, ⟨none, none, 0⟩, by simp only [List.length_cons, sameLevel], ?_⟩
          simp only [outerSymbols, Draft.symbols, disjunctSymbols, Draft.conjunctSymbols,
            List.replicate_zero, List.append_nil]
      | truth value =>
          cases stepped
          exact writes_take frame value outer drafts draft (.truth value) sameLevel
      | atom name =>
          cases stepped
          exact writes_take frame (assignment name) outer drafts draft (.atom name) sameLevel
      | closing => cases stepped
      | conj => cases stepped
      | disj => cases stepped
  | operator disjuncts conjuncts outer =>
      obtain ⟨drafts, complete, conjunction, sameLevel, rfl⟩ := written
      cases symbol with
      | conj =>
          cases stepped
          refine ⟨drafts, ⟨complete, some conjunction, 0⟩, sameLevel, ?_⟩
          simp only [Draft.symbols, Draft.conjunctSymbols, List.replicate_zero, List.append_nil,
            List.append_assoc]
      | disj =>
          cases stepped
          refine ⟨drafts, ⟨some (Draft.close complete conjunction), none, 0⟩, sameLevel, ?_⟩
          simp only [Draft.symbols, disjunctSymbols, Draft.conjunctSymbols, Draft.close_symbols,
            List.replicate_zero, List.append_nil, List.append_assoc]
      | closing =>
          cases outer with
          | nil => cases stepped
          | cons frame outer =>
              cases stepped
              cases drafts with
              | nil => cases sameLevel
              | cons draft drafts =>
                  have group := writes_take frame (disjuncts || conjuncts) outer drafts draft
                    (.group (Draft.close complete conjunction)) (Nat.succ.inj sameLevel)
                  simpa only [outerSymbols, Expression.symbols, Draft.close_symbols,
                    List.append_assoc, List.cons_append, List.nil_append] using group
      | opening => cases stepped
      | neg => cases stepped
      | truth value => cases stepped
      | atom name => cases stepped

theorem writes_run (assignment : Atom → Bool) (reader last : Reader)
    (before symbols : List (Symbol Atom)) (written : reader.Writes before)
    (reached : reader.run assignment symbols = some last) : last.Writes (before ++ symbols) := by
  induction symbols generalizing reader before with
  | nil =>
      cases reached
      simpa only [List.append_nil] using written
  | cons symbol rest ih =>
      obtain ⟨next, stepped, later⟩ := Option.bind_eq_some_iff.mp reached
      have afterStep := writes_step assignment reader next before symbol written stepped
      simpa only [List.append_assoc, List.singleton_append] using ih next _ afterStep later

theorem writes_start : start.Writes ([] : List (Symbol Atom)) :=
  ⟨[], ⟨none, none, 0⟩, rfl, rfl⟩

end Reader

/-! ### Well-formed lists -/

theorem wellFormed_of_read (assignment : Atom → Bool) (symbols : List (Symbol Atom))
    (value : Bool) (reads : read assignment symbols = some value) : WellFormed symbols := by
  obtain ⟨last, reached, ends⟩ := Option.bind_eq_some_iff.mp reads
  have written := Reader.writes_run assignment _ _ _ _ Reader.writes_start reached
  cases last with
  | operand frame outer => cases ends
  | operator disjuncts conjuncts outer =>
      cases outer with
      | cons frame outer => cases ends
      | nil =>
          obtain ⟨drafts, complete, conjunction, sameLevel, symbolsEq⟩ := written
          cases List.length_eq_zero_iff.mp sameLevel
          exact ⟨Draft.close complete conjunction, by
            simpa only [Draft.close_symbols, Draft.outerSymbols, List.nil_append]
              using symbolsEq.symm⟩

theorem read_isSome_iff (assignment : Atom → Bool) (symbols : List (Symbol Atom)) :
    (read assignment symbols).isSome ↔ WellFormed symbols := by
  constructor
  · intro reads
    obtain ⟨value, readsValue⟩ := Option.isSome_iff_exists.mp reads
    exact wellFormed_of_read assignment symbols value readsValue
  · rintro ⟨expression, rfl⟩
    rw [expression.read_symbols]
    rfl

instance (symbols : List (Symbol Atom)) : Decidable (WellFormed symbols) :=
  decidable_of_iff _ (read_isSome_iff (fun _ => false) symbols)

theorem Expression.value_eq_of_symbols_eq (first second : Expression Atom .disj)
    (same : first.symbols = second.symbols) (assignment : Atom → Bool) :
    first.value assignment = second.value assignment := by
  have reads := first.read_symbols assignment
  rw [same, second.read_symbols] at reads
  exact (Option.some.inj reads).symm

/-! ### Lists that are read alike -/

/-- Two lists are read alike when every assignment gives them the same value, or
neither of them is well formed. -/
def ReadAlike (left right : List (Symbol Atom)) : Prop :=
  ∀ assignment, read assignment left = read assignment right

namespace ReadAlike

theorem refl (symbols : List (Symbol Atom)) : ReadAlike symbols symbols :=
  fun _ => rfl

theorem trans {first second third : List (Symbol Atom)} (left : ReadAlike first second)
    (right : ReadAlike second third) : ReadAlike first third :=
  fun assignment => (left assignment).trans (right assignment)

theorem wellFormed_iff {left right : List (Symbol Atom)} (alike : ReadAlike left right) :
    WellFormed left ↔ WellFormed right := by
  rw [← read_isSome_iff (fun _ => false), ← read_isSome_iff (fun _ => false), alike]

theorem exists_expression {left right : List (Symbol Atom)} (alike : ReadAlike left right)
    (first : Expression Atom .disj) (written : first.symbols = left) :
    ∃ second : Expression Atom .disj, second.symbols = right ∧
      ∀ assignment, second.value assignment = first.value assignment := by
  obtain ⟨second, writtenRight⟩ := alike.wellFormed_iff.mp ⟨first, written⟩
  refine ⟨second, writtenRight, ?_⟩
  intro assignment
  have reads := alike assignment
  rw [← written, ← writtenRight, Expression.read_symbols, Expression.read_symbols] at reads
  exact (Option.some.inj reads).symm

end ReadAlike

theorem Equivalent.readAlike {left right : List (Symbol Atom)} (same : Equivalent left right) :
    ReadAlike left right := by
  obtain ⟨first, second, rfl, rfl, sameValue⟩ := same
  intro assignment
  rw [Expression.read_symbols, Expression.read_symbols, sameValue]

theorem ReadAlike.equivalent {left right : List (Symbol Atom)} (alike : ReadAlike left right)
    (wellFormed : WellFormed left) : Equivalent left right := by
  obtain ⟨first, written⟩ := wellFormed
  obtain ⟨second, writtenRight, sameValue⟩ := alike.exists_expression first written
  exact ⟨first, second, written, writtenRight, fun assignment => (sameValue assignment).symm⟩

end BoolSimplify
