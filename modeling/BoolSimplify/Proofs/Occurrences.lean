/-
Where a pattern occurs.

A pattern is written out with a letter for each of its slots and with tokens for its run.
The main statement says that it matches at a position just where it stands written out
with a run that goes on for as long as it can, that the match ends where the written
pattern does, and that a rule whose sides are equal therefore changes nothing.
-/

import BoolSimplify.Proofs.Rewriting
import BoolSimplify.Token.Fragments

namespace BoolSimplify

/-! ### Patterns written out -/

def Bindings.written (letters : Slot → Letter) (run : List Token) : Bindings :=
  ⟨fun slot => some (letters slot), run⟩

/-- The pattern, written out with `letters` and `run`, stands in `tokens` from `start` to
just before `stop`. -/
def OccursAt (pattern : List Element) (letters : Slot → Letter) (run tokens : List Token)
    (start stop : Nat) : Prop :=
  ∃ before after, tokens = before ++ ((Bindings.written letters run).fill pattern ++ after) ∧
    before.length = start ∧
    start + ((Bindings.written letters run).fill pattern).length = stop ∧
    (Bindings.written letters run).WholeRun pattern after

theorem Bindings.WholeRun.congr {left right : Bindings} {pattern : List Element}
    {after : List Token} (whole : left.WholeRun pattern after) (sameRun : left.run = right.run)
    (same : ∀ slot, .atom (.slot slot) ∈ pattern → left.letters slot = right.letters slot) :
    right.WholeRun pattern after := by
  intro front back split
  have sameBack : left.fill back = right.fill back := by
    apply fill_congr _ _ _ (fun _ => sameRun)
    intro slot occurs
    apply same slot
    rw [split]
    exact List.mem_append_right front (List.mem_cons_of_mem _ occurs)
  rw [← sameRun, ← sameBack]
  exact whole front back split

/-! ### Matches -/

variable {pattern : List Element} {tokens : List Token}

theorem occursAt_of_match (oneRun : pattern.count Element.run ≤ 1) (start : Nat) (found : Match)
    (within : start ≤ tokens.length)
    (matched : matchPrefix? pattern (tokens.drop start) = some found) :
    ∃ letters run, OccursAt pattern letters run tokens start
      (tokens.length - found.rest.length) := by
  let letters : Slot → Letter := fun slot => (found.bindings.letters slot).getD .a
  let written := Bindings.written letters found.bindings.run
  have sameSlot (slot : Slot) (occurs : .atom (.slot slot) ∈ pattern) :
      found.bindings.letters slot = written.letters slot := by
    obtain ⟨letter, isLetter⟩ := Match.extendAll_binds _ found pattern matched slot occurs
    change found.bindings.letters slot = some ((found.bindings.letters slot).getD .a)
    rw [isLetter, Option.getD_some]
  have sameFill : found.bindings.fill pattern = written.fill pattern :=
    Bindings.fill_congr _ _ pattern (fun _ => rfl) sameSlot
  have consumed : tokens.drop start = written.fill pattern ++ found.rest := by
    rw [← sameFill]
    exact Match.extendAll_fill _ found pattern matched oneRun
  have whole : written.WholeRun pattern found.rest :=
    (Match.extendAll_wholeRun _ found pattern matched oneRun).congr rfl sameSlot
  refine ⟨letters, found.bindings.run, tokens.take start, found.rest, ?_, ?_, ?_, whole⟩
  · rw [← consumed, List.take_append_drop]
  · exact List.length_take_of_le within
  · have lengths := congrArg List.length consumed
    rw [List.length_drop, List.length_append] at lengths
    change start + (written.fill pattern).length = _
    omega

theorem OccursAt.exists_match {letters : Slot → Letter} {run : List Token} {start stop : Nat}
    (occurs : OccursAt pattern letters run tokens start stop) :
    ∃ found, matchPrefix? pattern (tokens.drop start) = some found ∧
      tokens.length - found.rest.length = stop ∧ found.bindings.Grows (.written letters run) ∧
      (Element.run ∈ pattern → found.bindings.run = run) := by
  obtain ⟨before, after, rfl, rfl, rfl, whole⟩ := occurs
  obtain ⟨reached, grows, sameRun, matched⟩ :=
    Match.extendAll_of_fill .empty (.written letters run) pattern after whole
      (fun slot _ => ⟨letters slot, rfl⟩) (fun slot letter bound => by cases bound)
  refine ⟨⟨reached, after⟩, ?_, ?_, grows, sameRun⟩
  · rw [List.drop_left]
    exact matched
  · simp only [List.length_append]
    omega

theorem length_le_of_match (start : Nat) (found : Match)
    (matched : matchPrefix? pattern (tokens.drop start) = some found) :
    found.rest.length + pattern.length ≤ tokens.length - start := by
  have taken := Match.extendAll_length_le _ found pattern matched
  rwa [List.length_drop] at taken

namespace OccursAt

variable {letters : Slot → Letter} {run : List Token} {start stop : Nat}
  (occurs : OccursAt pattern letters run tokens start stop)

include occurs

theorem within (nonempty : pattern ≠ []) : start < stop ∧ stop ≤ tokens.length := by
  obtain ⟨found, matched, ends, _⟩ := occurs.exists_match
  have taken := length_le_of_match start found matched
  have patternLength := List.length_pos_iff.mpr nonempty
  omega

theorem stop_unique {otherLetters : Slot → Letter} {otherRun : List Token} {other : Nat}
    (otherOccurs : OccursAt pattern otherLetters otherRun tokens start other) : other = stop := by
  obtain ⟨found, matched, ends, _⟩ := occurs.exists_match
  obtain ⟨otherFound, otherMatched, otherEnds, _⟩ := otherOccurs.exists_match
  cases matched.symm.trans otherMatched
  exact otherEnds.symm.trans ends

theorem binds {found : Match} (matched : matchPrefix? pattern (tokens.drop start) = some found) :
    (∀ slot, .atom (.slot slot) ∈ pattern →
      found.bindings.letters slot = some (letters slot)) ∧
    (Element.run ∈ pattern → found.bindings.run = run) := by
  obtain ⟨sameFound, sameMatched, _, grows, sameRun⟩ := occurs.exists_match
  cases matched.symm.trans sameMatched
  refine ⟨fun slot inPattern => ?_, sameRun⟩
  obtain ⟨letter, isLetter⟩ := Match.extendAll_binds _ found pattern matched slot inPattern
  rw [isLetter]
  exact (grows slot letter isLetter).symm

end OccursAt

theorem Rule.apply_of_same_sides (rule : Rule) (oneRun : rule.pattern.count Element.run ≤ 1)
    (sameSides : rule.replacement = rule.pattern) (tokens : List Token) :
    (rule.apply tokens).tokens = tokens := by
  refine (rule.apply_rewrites tokens).preserves (· = tokens) ?_ rfl
  intro other member first second replaced unchanged
  rw [List.mem_singleton.mp member] at replaced
  obtain ⟨before, after, bindings, written⟩ := replaced.writesOut oneRun
  rw [written.second_eq, sameSides, ← written.first_eq, unchanged]

/-- A pattern with at most one run matches at a position just where it stands written out,
with letters for its slots and with a run that holds no parenthesis and ends at one or at
the end of the tokens.  The match takes in what is written, of which there is one end only,
and binds the letters and the run.  A rule that puts its own pattern back changes nothing. -/
theorem match_iff_occurs (pattern : List Element) (nonempty : pattern ≠ [])
    (oneRun : pattern.count Element.run ≤ 1) (tokens : List Token) :
    (∀ start stop,
      (∃ found, matchPrefix? pattern (tokens.drop start) = some found ∧
          tokens.length - found.rest.length = stop) ↔
        ∃ letters run, OccursAt pattern letters run tokens start stop) ∧
    (∀ start stop letters run, OccursAt pattern letters run tokens start stop →
      start < stop ∧ stop ≤ tokens.length ∧
        (∀ other otherLetters otherRun,
          OccursAt pattern otherLetters otherRun tokens start other → other = stop) ∧
        ∀ found, matchPrefix? pattern (tokens.drop start) = some found →
          (∀ slot, .atom (.slot slot) ∈ pattern →
            found.bindings.letters slot = some (letters slot)) ∧
          (Element.run ∈ pattern → found.bindings.run = run)) ∧
    ∀ family, ((Rule.mk family pattern pattern nonempty).apply tokens).tokens = tokens := by
  refine ⟨fun start stop => ⟨?_, ?_⟩, ?_, ?_⟩
  · rintro ⟨found, matched, rfl⟩
    have taken := length_le_of_match start found matched
    have patternLength := List.length_pos_iff.mpr nonempty
    exact occursAt_of_match oneRun start found (by omega) matched
  · rintro ⟨letters, run, occurs⟩
    obtain ⟨found, matched, ends, _⟩ := occurs.exists_match
    exact ⟨found, matched, ends⟩
  · intro start stop letters run occurs
    obtain ⟨starts, ends⟩ := occurs.within nonempty
    exact ⟨starts, ends, fun _ _ _ => occurs.stop_unique, fun _ => occurs.binds⟩
  · intro family
    exact Rule.apply_of_same_sides ⟨family, pattern, pattern, nonempty⟩ oneRun rfl tokens

/-- `X(E))X`, which is not balanced -/
def strayPattern : List Element :=
  [.x, .opening, .run, .closing, .closing, .x]

/-- The slot stands for the same letter at both ends, and the run for three tokens. -/
theorem match_iff_occurs_stray :
    strayPattern ≠ [] ∧ strayPattern.count Element.run ≤ 1 ∧
      (∃ letters run, OccursAt strayPattern letters run (tokenize "~B(foo & A)) B |") 1 9 ∧
        letters .x = .b ∧ run = tokenize "foo & A") ∧
      (¬∃ letters run, OccursAt strayPattern letters run (tokenize "~B(foo & A)) C |") 1 9) ∧
      ∀ family, ((Rule.mk family strayPattern strayPattern (by decide)).apply
        (tokenize "~B(foo & A)) B |")).tokens = tokenize "~B(foo & A)) B |" := by
  have nonempty : strayPattern ≠ [] := by decide
  have oneRun : strayPattern.count Element.run ≤ 1 := by decide
  obtain ⟨places, bound, copied⟩ :=
    match_iff_occurs strayPattern nonempty oneRun (tokenize "~B(foo & A)) B |")
  obtain ⟨letters, run, occurs⟩ := (places 1 9).mp ⟨_, rfl, rfl⟩
  obtain ⟨sameLetter, sameRun⟩ := (bound 1 9 letters run occurs).2.2.2 _ rfl
  have elsewhere := match_iff_occurs strayPattern nonempty oneRun (tokenize "~B(foo & A)) C |")
  refine ⟨nonempty, oneRun, ⟨letters, run, occurs, ?_, ?_⟩, ?_, copied⟩
  · exact (Option.some.inj (sameLetter .x (by decide))).symm
  · exact (sameRun (by decide)).symm
  · rw [← elsewhere.1 1 9]
    rintro ⟨found, matched, _⟩
    cases matched

end BoolSimplify
