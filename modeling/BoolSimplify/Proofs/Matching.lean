/-
What a match of a pattern says about the tokens.

A match consumes tokens at the front and leaves the rest.  The main statements
say that what it consumes is the pattern written out with its bindings, that this
has the parentheses of the pattern, and that a parenthesis behind the tokens
hides from a match what follows it.
-/

import BoolSimplify.Proofs.Balance
import BoolSimplify.Rule.Match

namespace BoolSimplify

/-! ### Bindings -/

namespace Bindings

def Grows (before after : Bindings) : Prop :=
  ∀ slot letter, before.letters slot = some letter → after.letters slot = some letter

theorem Grows.refl (bindings : Bindings) : bindings.Grows bindings :=
  fun _ _ bound => bound

theorem Grows.trans {first second third : Bindings} (left : first.Grows second)
    (right : second.Grows third) : first.Grows third :=
  fun slot letter bound => right slot letter (left slot letter bound)

theorem bind_run (before after : Bindings) (slot : Slot) (letter : Letter)
    (bound : before.bind slot letter = some after) : after.run = before.run := by
  unfold bind at bound
  split at bound
  · split at bound
    · cases bound
      rfl
    · cases bound
  · cases bound
    rfl

theorem bind_letters (before after : Bindings) (slot : Slot) (letter : Letter)
    (bound : before.bind slot letter = some after) : after.letters slot = some letter := by
  unfold bind at bound
  split at bound
  · rename_i known isKnown
    split at bound
    · rename_i same
      cases bound
      rw [isKnown, same]
    · cases bound
  · cases bound
    exact if_pos rfl

theorem bind_grows (before after : Bindings) (slot : Slot) (letter : Letter)
    (bound : before.bind slot letter = some after) : before.Grows after := by
  intro other known isKnown
  unfold bind at bound
  split at bound
  · split at bound
    · cases bound
      exact isKnown
    · cases bound
  · rename_i isFree
    cases bound
    by_cases same : other = slot
    · rw [same, isFree] at isKnown
      cases isKnown
    · exact (if_neg same).trans isKnown

theorem bind_of_grows (before target : Bindings) (slot : Slot) (letter : Letter)
    (grows : before.Grows target) (isLetter : target.letters slot = some letter) :
    ∃ after, before.bind slot letter = some after ∧ after.Grows target := by
  unfold bind
  cases known : before.letters slot with
  | some bound =>
      have same : bound = letter := Option.some.inj ((grows slot bound known).symm.trans isLetter)
      exact ⟨before, if_pos same, grows⟩
  | none =>
      refine ⟨_, rfl, ?_⟩
      intro other otherLetter isOther
      dsimp only at isOther
      by_cases same : other = slot
      · rw [if_pos same] at isOther
        rw [same, isLetter, isOther]
      · rw [if_neg same] at isOther
        exact grows other otherLetter isOther

theorem fill_cons (bindings : Bindings) (element : Element) (elements : List Element) :
    bindings.fill (element :: elements) =
      element.expand bindings.image ++ bindings.fill elements := rfl

theorem fill_congr (left right : Bindings) (elements : List Element)
    (sameRun : Element.run ∈ elements → left.run = right.run)
    (same : ∀ slot, .atom (.slot slot) ∈ elements → left.letters slot = right.letters slot) :
    left.fill elements = right.fill elements := by
  induction elements with
  | nil => rfl
  | cons element elements ih =>
      have sameLater := ih (fun member => sameRun (List.mem_cons_of_mem element member))
        (fun slot member => same slot (List.mem_cons_of_mem element member))
      rw [fill_cons, fill_cons, sameLater]
      congr 1
      cases element with
      | atom placeholder =>
          cases placeholder with
          | slot slot =>
              have sameLetter := same slot List.mem_cons_self
              simp only [Symbol.expand, image, sameLetter]
          | run => exact sameRun List.mem_cons_self
      | opening => rfl
      | closing => rfl
      | conj => rfl
      | disj => rfl
      | neg => rfl
      | truth value => rfl

/-- Where the pattern, written out in front of `after`, has its run, the run holds a
token and no parenthesis, and a parenthesis or the end is next to it. -/
def WholeRun (bindings : Bindings) (pattern : List Element) (after : List Token) : Prop :=
  ∀ front back, pattern = front ++ Element.run :: back →
    bindings.run ≠ [] ∧ (∀ token ∈ bindings.run, token.isParenthesis = false) ∧
      ∀ next ∈ (bindings.fill back ++ after).head?, next.isParenthesis = true

namespace WholeRun

variable {bindings : Bindings} {pattern : List Element} {after : List Token}

theorem of_noRun (noRun : Element.run ∉ pattern) : bindings.WholeRun pattern after := by
  intro front back split
  rw [split] at noRun
  exact absurd (List.mem_append_right front List.mem_cons_self) noRun

theorem tail {element : Element} (whole : bindings.WholeRun (element :: pattern) after) :
    bindings.WholeRun pattern after :=
  fun front back split => whole (element :: front) back (congrArg (List.cons element) split)

end WholeRun

end Bindings

theorem Element.expand_of_literal (element : Element) (token : Token) (bindings : Bindings)
    (stands : element.literal? = some token) : element.expand bindings.image = [token] := by
  cases element with
  | atom placeholder => cases stands
  | opening => cases stands; rfl
  | closing => cases stands; rfl
  | conj => cases stands; rfl
  | disj => cases stands; rfl
  | neg => cases stands; rfl
  | truth value => cases stands; rfl

theorem leadingRun_plain (tokens : List Token) :
    ∀ token ∈ leadingRun tokens, token.isParenthesis = false := by
  intro token member
  have plain := List.all_eq_true.mp (List.all_takeWhile (p := fun token : Token =>
    !token.isParenthesis) (l := tokens)) token member
  simpa only [Bool.not_eq_true'] using plain

theorem leadingRun_ends (tokens rest : List Token) (split : tokens = leadingRun tokens ++ rest) :
    ∀ next ∈ rest.head?, next.isParenthesis = true := by
  have whole : leadingRun tokens ++ tokens.dropWhile (!·.isParenthesis) = tokens :=
    List.takeWhile_append_dropWhile
  have restEq := List.append_cancel_left (whole.trans split)
  intro next isNext
  have stops := List.head?_dropWhile_not (fun token : Token => !token.isParenthesis) tokens
  rw [restEq, Option.mem_def.mp isNext] at stops
  simpa only [Bool.not_eq_false'] using stops

theorem leadingRun_eq (run rest : List Token)
    (plain : ∀ token ∈ run, token.isParenthesis = false)
    (ends : ∀ next ∈ rest.head?, next.isParenthesis = true) : leadingRun (run ++ rest) = run := by
  have allPlain : ∀ token ∈ run, (!token.isParenthesis) = true := by
    intro token member
    rw [plain token member]
    rfl
  rw [leadingRun, List.takeWhile_append_of_pos allPlain]
  cases rest with
  | nil => exact List.append_nil run
  | cons next rest =>
      have isMark := ends next rfl
      rw [List.takeWhile_cons, isMark]
      exact List.append_nil run

/-! ### One element -/

namespace Match

inductive Extends (found : Match) : Element → Match → Prop where
  | slot (slot : Slot) (letter : Letter) (rest : List Token) (bindings : Bindings)
      (restEq : found.rest = .letter letter :: rest)
      (bound : found.bindings.bind slot letter = some bindings) :
      Extends found (.atom (.slot slot)) ⟨bindings, rest⟩
  | run (rest : List Token) (nonempty : leadingRun found.rest ≠ [])
      (restEq : found.rest = leadingRun found.rest ++ rest) :
      Extends found (.atom .run) ⟨{ found.bindings with run := leadingRun found.rest }, rest⟩
  | literal (element : Element) (token : Token) (rest : List Token)
      (stands : element.literal? = some token) (restEq : found.rest = token :: rest) :
      Extends found element ⟨found.bindings, rest⟩

theorem extend_nil (bindings : Bindings) (element : Element) :
    (mk bindings []).extend element = none := by
  cases element with
  | atom placeholder => cases placeholder <;> rfl
  | opening | closing | conj | disj | neg => rfl
  | truth value => rfl

theorem extend_literal (bindings : Bindings) (element : Element) (token : Token)
    (rest : List Token) (literal : element.literal?.isSome = true) :
    (mk bindings (token :: rest)).extend element =
      if element.literal? = some token then some (mk bindings rest) else none := by
  cases element with
  | atom placeholder => cases literal
  | opening | closing | conj | disj | neg => rfl
  | truth value => rfl

private theorem extends_of_literal (found next : Match) (element : Element)
    (literal : element.literal?.isSome = true) (extended : found.extend element = some next) :
    found.Extends element next := by
  obtain ⟨bindings, tokens⟩ := found
  cases tokens with
  | nil =>
      rw [extend_nil] at extended
      cases extended
  | cons token rest =>
      rw [extend_literal _ _ _ _ literal] at extended
      split at extended
      · rename_i same
        cases extended
        exact .literal element token rest same rfl
      · cases extended

theorem extends_of_extend (found next : Match) (element : Element)
    (extended : found.extend element = some next) : found.Extends element next := by
  cases element with
  | atom placeholder =>
      cases placeholder with
      | slot slot =>
          simp only [extend] at extended
          split at extended
          · rename_i letter rest restEq
            obtain ⟨bindings, bound, rfl⟩ := Option.map_eq_some_iff.mp extended
            exact .slot slot letter rest bindings restEq bound
          · cases extended
      | run =>
          simp only [extend] at extended
          by_cases empty : leadingRun found.rest = []
          · rw [if_pos empty] at extended
            cases extended
          · rw [if_neg empty] at extended
            cases extended
            refine .run _ empty ?_
            exact (List.prefix_iff_eq_append.mp (List.takeWhile_prefix _)).symm
  | opening | closing | conj | disj | neg | truth value =>
      exact extends_of_literal found next _ rfl extended

theorem Extends.length_lt {found next : Match} {element : Element}
    (extended : found.Extends element next) : next.rest.length < found.rest.length := by
  cases extended with
  | slot slot letter rest bindings restEq bound =>
      rw [restEq]
      exact Nat.lt_succ_self _
  | run rest nonempty restEq =>
      have taken := List.length_pos_iff.mpr nonempty
      have total := congrArg List.length restEq
      rw [List.length_append] at total
      change rest.length < found.rest.length
      omega
  | literal element token rest stands restEq =>
      rw [restEq]
      exact Nat.lt_succ_self _

theorem Extends.grows {found next : Match} {element : Element}
    (extended : found.Extends element next) : found.bindings.Grows next.bindings := by
  cases extended with
  | slot slot letter rest bindings restEq bound => exact Bindings.bind_grows _ _ _ _ bound
  | run rest nonempty restEq => exact fun _ _ bound => bound
  | literal element token rest stands restEq => exact .refl _

/-! ### Whole patterns -/

theorem extendAll_cons (found result : Match) (element : Element) (pattern : List Element)
    (matched : found.extendAll (element :: pattern) = some result) :
    ∃ next, found.Extends element next ∧ next.extendAll pattern = some result := by
  obtain ⟨next, extended, later⟩ := Option.bind_eq_some_iff.mp matched
  exact ⟨next, extends_of_extend found next element extended, later⟩

theorem extendAll_append (found : Match) (first second : List Element) :
    found.extendAll (first ++ second) = (found.extendAll first).bind (·.extendAll second) := by
  induction first generalizing found with
  | nil => rfl
  | cons element first ih =>
      simp only [List.cons_append, extendAll, ih, Option.bind_assoc]

theorem extendAll_length_le (found result : Match) (pattern : List Element)
    (matched : found.extendAll pattern = some result) :
    result.rest.length + pattern.length ≤ found.rest.length := by
  induction pattern generalizing found with
  | nil =>
      cases matched
      exact Nat.le_refl _
  | cons element pattern ih =>
      obtain ⟨next, extended, later⟩ := extendAll_cons found result element pattern matched
      have shorter := extended.length_lt
      have rest := ih next later
      rw [List.length_cons]
      omega

theorem extendAll_grows (found result : Match) (pattern : List Element)
    (matched : found.extendAll pattern = some result) :
    found.bindings.Grows result.bindings := by
  induction pattern generalizing found with
  | nil =>
      cases matched
      exact .refl _
  | cons element pattern ih =>
      obtain ⟨next, extended, later⟩ := extendAll_cons found result element pattern matched
      exact extended.grows.trans (ih next later)

theorem extendAll_binds (found result : Match) (pattern : List Element)
    (matched : found.extendAll pattern = some result) (slot : Slot)
    (occurs : .atom (.slot slot) ∈ pattern) :
    ∃ letter, result.bindings.letters slot = some letter := by
  induction pattern generalizing found with
  | nil => cases occurs
  | cons element pattern ih =>
      obtain ⟨next, extended, later⟩ := extendAll_cons found result element pattern matched
      rcases List.mem_cons.mp occurs with rfl | occursLater
      · cases extended with
        | slot _ letter rest bindings restEq bound =>
            exact ⟨letter, extendAll_grows _ result pattern later slot letter
              (Bindings.bind_letters _ _ _ _ bound)⟩
        | literal _ token rest stands restEq => cases stands
      · exact ih next later occursLater

theorem extendAll_run (found result : Match) (pattern : List Element)
    (matched : found.extendAll pattern = some result) (noRun : Element.run ∉ pattern) :
    result.bindings.run = found.bindings.run := by
  induction pattern generalizing found with
  | nil =>
      cases matched
      rfl
  | cons element pattern ih =>
      obtain ⟨next, extended, later⟩ := extendAll_cons found result element pattern matched
      have noRunLater : Element.run ∉ pattern :=
        fun member => noRun (List.mem_cons_of_mem element member)
      rw [ih next later noRunLater]
      cases extended with
      | slot slot letter rest bindings restEq bound => exact Bindings.bind_run _ _ _ _ bound
      | run rest nonempty restEq => exact absurd List.mem_cons_self noRun
      | literal element token rest stands restEq => rfl

/-- The tokens that a match consumes have the parentheses of the pattern. -/
theorem extendAll_unmatched (found result : Match) (pattern : List Element)
    (matched : found.extendAll pattern = some result) :
    ∃ consumed, found.rest = consumed ++ result.rest ∧
      unmatched consumed = unmatched pattern := by
  induction pattern generalizing found with
  | nil =>
      cases matched
      exact ⟨[], rfl, rfl⟩
  | cons element pattern ih =>
      obtain ⟨next, extended, later⟩ := extendAll_cons found result element pattern matched
      obtain ⟨consumed, nextEq, sameParentheses⟩ := ih next later
      rw [unmatched_cons, ← sameParentheses]
      cases extended with
      | slot slot letter rest bindings restEq bound =>
          refine ⟨.letter letter :: consumed, restEq.trans (congrArg (List.cons _) nextEq), ?_⟩
          exact unmatched_cons _ _
      | run rest nonempty restEq =>
          refine ⟨leadingRun found.rest ++ consumed, ?_, ?_⟩
          · rw [List.append_assoc]
            exact restEq.trans (congrArg (leadingRun found.rest ++ ·) nextEq)
          · rw [unmatched_append, balanced_of_plain _ (leadingRun_plain found.rest)]
            rfl
      | literal element token rest stands restEq =>
          refine ⟨token :: consumed, restEq.trans (congrArg (List.cons _) nextEq), ?_⟩
          rw [unmatched_cons]
          congr 1
          cases element with
          | atom placeholder => cases stands
          | opening => cases stands; rfl
          | closing => cases stands; rfl
          | conj => cases stands; rfl
          | disj => cases stands; rfl
          | neg => cases stands; rfl
          | truth value => cases stands; rfl

/-- What a match consumes is the pattern written out.  A second run would take the
place of the first one in the bindings. -/
theorem extendAll_fill (found result : Match) (pattern : List Element)
    (matched : found.extendAll pattern = some result)
    (oneRun : pattern.count Element.run ≤ 1) :
    found.rest = result.bindings.fill pattern ++ result.rest := by
  induction pattern generalizing found with
  | nil =>
      cases matched
      rfl
  | cons element pattern ih =>
      obtain ⟨next, extended, later⟩ := extendAll_cons found result element pattern matched
      have oneRunLater : pattern.count Element.run ≤ 1 :=
        Nat.le_trans List.count_le_count_cons oneRun
      have nextEq := ih next later oneRunLater
      rw [Bindings.fill_cons, List.append_assoc, ← nextEq]
      cases extended with
      | slot slot letter rest bindings restEq bound =>
          have known := extendAll_grows _ result pattern later slot letter
            (Bindings.bind_letters _ _ _ _ bound)
          simpa only [Symbol.expand, Bindings.image, known, Option.map_some, Option.toList_some,
            List.singleton_append] using restEq
      | run rest nonempty restEq =>
          rw [List.count_cons_self] at oneRun
          have noRunLater : Element.run ∉ pattern := List.count_eq_zero.mp (by omega)
          have kept := extendAll_run _ result pattern later noRunLater
          simpa only [Symbol.expand, Bindings.image, kept] using restEq
      | literal element token rest stands restEq =>
          rw [Element.expand_of_literal element token _ stands]
          exact restEq

/-- The run of a match goes on for as long as it can. -/
theorem extendAll_wholeRun (found result : Match) (pattern : List Element)
    (matched : found.extendAll pattern = some result) (oneRun : pattern.count Element.run ≤ 1) :
    result.bindings.WholeRun pattern result.rest := by
  rintro front back rfl
  rw [List.count_append, List.count_cons_self] at oneRun
  have noLater : Element.run ∉ back := List.count_eq_zero.mp (by omega)
  rw [extendAll_append] at matched
  obtain ⟨reached, _, behind⟩ := Option.bind_eq_some_iff.mp matched
  obtain ⟨next, extended, later⟩ := extendAll_cons reached result _ back behind
  have sameRun := extendAll_run next result back later noLater
  rw [← extendAll_fill next result back later (by omega), sameRun]
  cases extended with
  | run rest nonempty restEq =>
      exact ⟨nonempty, leadingRun_plain reached.rest, leadingRun_ends reached.rest rest restEq⟩
  | literal _ token rest stands restEq => cases stands

/-- A pattern matches wherever it is written out with a run that goes on for as long as it
can, and the match binds what it was written out with. -/
theorem extendAll_of_fill (start target : Bindings) (pattern : List Element) (after : List Token)
    (whole : target.WholeRun pattern after)
    (bound : ∀ slot, .atom (.slot slot) ∈ pattern → ∃ letter, target.letters slot = some letter)
    (grows : start.Grows target) :
    ∃ reached : Bindings, reached.Grows target ∧
      (Element.run ∈ pattern → reached.run = target.run) ∧
      extendAll ⟨start, target.fill pattern ++ after⟩ pattern = some ⟨reached, after⟩ := by
  induction pattern generalizing start with
  | nil => exact ⟨start, grows, fun member => absurd member List.not_mem_nil, rfl⟩
  | cons element pattern ih =>
      have later (next : Bindings) (nextGrows : next.Grows target) :=
        ih next whole.tail (fun slot occurs => bound slot (List.mem_cons_of_mem element occurs))
          nextGrows
      cases element with
      | atom placeholder =>
          cases placeholder with
          | run =>
              obtain ⟨nonempty, plain, ends⟩ := whole [] pattern rfl
              have taken := leadingRun_eq target.run _ plain ends
              obtain ⟨reached, reachedGrows, sameRun, matched⟩ :=
                later { start with run := target.run } grows
              refine ⟨reached, reachedGrows, fun _ => ?_, ?_⟩
              · by_cases again : Element.run ∈ pattern
                · exact sameRun again
                · exact extendAll_run _ _ pattern matched again
              · simp only [Bindings.fill_cons, Symbol.expand, Bindings.image, List.append_assoc,
                  extendAll, extend, taken, if_neg nonempty, List.drop_left, Option.bind_some,
                  matched]
          | slot slot =>
              obtain ⟨letter, isLetter⟩ := bound slot List.mem_cons_self
              obtain ⟨next, nextEq, nextGrows⟩ :=
                start.bind_of_grows target slot letter grows isLetter
              obtain ⟨reached, reachedGrows, sameRun, matched⟩ := later next nextGrows
              refine ⟨reached, reachedGrows,
                fun member => sameRun ((List.mem_cons.mp member).resolve_left nofun), ?_⟩
              simp only [Bindings.fill_cons, Symbol.expand, Bindings.image, isLetter,
                Option.map_some, Option.toList_some, List.cons_append, List.nil_append, extendAll,
                extend, nextEq, Option.bind_some, matched]
      | opening | closing | conj | disj | neg | truth value =>
          obtain ⟨reached, reachedGrows, sameRun, matched⟩ := later start grows
          refine ⟨reached, reachedGrows,
            fun member => sameRun ((List.mem_cons.mp member).resolve_left nofun), ?_⟩
          simpa only [Bindings.fill_cons, Symbol.expand, List.cons_append, List.nil_append,
            extendAll, extend, Element.literal?, if_true, Option.bind_some] using matched

theorem extendAll_run_mem (found result : Match) (pattern : List Element)
    (matched : found.extendAll pattern = some result) (token : Token)
    (member : token ∈ result.bindings.run) :
    token ∈ found.bindings.run ∨ (token.isParenthesis = false ∧ token ∈ found.rest) := by
  induction pattern generalizing found with
  | nil =>
      cases matched
      exact .inl member
  | cons element pattern ih =>
      obtain ⟨next, extended, later⟩ := extendAll_cons found result element pattern matched
      have earlier := ih next later
      cases extended with
      | slot slot letter rest bindings restEq bound =>
          rw [restEq]
          rw [Bindings.bind_run _ _ _ _ bound] at earlier
          exact earlier.imp_right (And.imp_right (List.mem_cons_of_mem _))
      | run rest nonempty restEq =>
          refine .inr ?_
          rcases earlier with inRun | ⟨plain, inRest⟩
          · exact ⟨leadingRun_plain _ token inRun, (List.takeWhile_sublist _).mem inRun⟩
          · exact ⟨plain, by rw [restEq]; exact List.mem_append_right _ inRest⟩
      | literal element other rest stands restEq =>
          rw [restEq]
          exact earlier.imp_right (And.imp_right (List.mem_cons_of_mem _))

/-! ### What stands behind a group -/

def push (after : List Token) (found : Match) : Match :=
  { found with rest := found.rest ++ after }

theorem leadingRun_append (tokens : List Token) (mark : Token) (after : List Token)
    (isMark : mark.isParenthesis = true) :
    leadingRun (tokens ++ mark :: after) = leadingRun tokens := by
  induction tokens with
  | nil => simp only [leadingRun, List.nil_append, List.takeWhile_nil, List.takeWhile_cons, isMark,
      Bool.not_true, Bool.false_eq_true, if_false]
  | cons token tokens ih =>
      simp only [leadingRun, List.cons_append, List.takeWhile_cons] at ih ⊢
      rw [ih]

theorem leadingRun_append_of_not_balanced {tokens : List Token} (notBalanced : ¬Balanced tokens)
    (after : List Token) : leadingRun (tokens ++ after) = leadingRun tokens := by
  have shorter : (leadingRun tokens).length ≠ tokens.length := by
    intro sameLength
    have whole : leadingRun tokens = tokens :=
      (List.takeWhile_prefix _).eq_of_length sameLength
    have plain := leadingRun_plain tokens
    rw [whole] at plain
    exact notBalanced (balanced_of_plain tokens plain)
  exact List.takeWhile_append.trans (if_neg shorter)

theorem extend_push (found : Match) (element : Element) (after : List Token)
    (remaining : found.rest ≠ [])
    (sameRun : element = Element.run → leadingRun (found.rest ++ after) = leadingRun found.rest) :
    (found.push after).extend element = (found.extend element).map (push after) := by
  obtain ⟨bindings, tokens⟩ := found
  cases tokens with
  | nil => exact absurd rfl remaining
  | cons token tokens =>
      have literalCase (element : Element) (literal : element.literal?.isSome = true) :
          (mk bindings (token :: (tokens ++ after))).extend element =
            ((mk bindings (token :: tokens)).extend element).map (push after) := by
        rw [extend_literal _ _ _ _ literal, extend_literal _ _ _ _ literal]
        split <;> rfl
      cases element with
      | atom placeholder =>
          cases placeholder with
          | slot slot =>
              cases token with
              | atom name =>
                  cases name with
                  | letter letter =>
                      simp only [push, extend, List.cons_append, Option.map_map]
                      rfl
                  | word text => rfl
              | opening => rfl
              | closing => rfl
              | conj => rfl
              | disj => rfl
              | neg => rfl
              | truth value => rfl
          | run =>
              have same : leadingRun (token :: tokens ++ after) = leadingRun (token :: tokens) :=
                sameRun rfl
              have short : (leadingRun (token :: tokens)).length ≤ (token :: tokens).length :=
                (List.takeWhile_sublist _).length_le
              by_cases empty : leadingRun (token :: tokens) = []
              · simp only [push, extend, same, if_pos empty, Option.map_none]
              · simp only [push, extend, same, if_neg empty, Option.map_some,
                  List.drop_append_of_le_length short]
      | opening | closing | conj | disj | neg | truth value => exact literalCase _ rfl

theorem extendAll_push_iff (found : Match) (pattern : List Element) (mark : Token)
    (after : List Token) (isMark : mark.isParenthesis = true) (bindings : Bindings)
    (rest : List Token) :
    (found.push (mark :: after)).extendAll pattern = some ⟨bindings, rest ++ mark :: after⟩ ↔
      found.extendAll pattern = some ⟨bindings, rest⟩ := by
  induction pattern generalizing found with
  | nil =>
      obtain ⟨before, tokens⟩ := found
      simp only [extendAll, push, Option.some.injEq, Match.mk.injEq, List.append_cancel_right_eq]
  | cons element pattern ih =>
      by_cases remaining : found.rest = []
      · constructor
        · intro matched
          have taken := extendAll_length_le _ _ _ matched
          simp only [push, remaining, List.nil_append, List.length_append,
            List.length_cons] at taken
          omega
        · intro matched
          have taken := extendAll_length_le _ _ _ matched
          simp only [remaining, List.length_nil, List.length_cons] at taken
          omega
      · simp only [extendAll]
        rw [extend_push found element _ remaining
          (fun _ => leadingRun_append found.rest mark after isMark)]
        cases found.extend element with
        | none => simp only [Option.map_none, Option.bind_none, reduceCtorEq]
        | some next => exact ih next

end Match

/-! ### Filling in bindings -/

namespace Bindings

theorem image_plain (bindings : Bindings)
    (plain : ∀ token ∈ bindings.run, token.isParenthesis = false) (placeholder : Placeholder) :
    ∀ token ∈ bindings.image placeholder, token.isParenthesis = false := by
  intro token member
  cases placeholder with
  | run => exact plain token member
  | slot slot =>
      obtain ⟨letter, _, rfl⟩ := Option.map_eq_some_iff.mp (Option.mem_toList.mp member)
      rfl

theorem unmatched_fill (bindings : Bindings)
    (plain : ∀ token ∈ bindings.run, token.isParenthesis = false) (elements : List Element) :
    unmatched (bindings.fill elements) = unmatched elements := by
  induction elements with
  | nil => rfl
  | cons element elements ih =>
      rw [fill_cons, unmatched_append, ih, unmatched_cons]
      congr 1
      cases element with
      | atom placeholder => exact balanced_of_plain _ (image_plain bindings plain placeholder)
      | opening => rfl
      | closing => rfl
      | conj => rfl
      | disj => rfl
      | neg => rfl
      | truth value => rfl

theorem count_opening_fill (bindings : Bindings)
    (plain : ∀ token ∈ bindings.run, token.isParenthesis = false) (elements : List Element) :
    (bindings.fill elements).count .opening = elements.count .opening := by
  induction elements with
  | nil => rfl
  | cons element elements ih =>
      rw [fill_cons, List.count_append, ih, List.count_cons, Nat.add_comm]
      congr 1
      cases element with
      | atom placeholder =>
          apply List.count_eq_zero.mpr
          intro inImage
          cases image_plain bindings plain placeholder _ inImage
      | opening => rfl
      | closing => rfl
      | conj => rfl
      | disj => rfl
      | neg => rfl
      | truth value => rfl

theorem atom_mem_fill (bindings : Bindings) (elements : List Element) (name : Name) :
    .atom name ∈ bindings.fill elements ↔
      ∃ placeholder, .atom placeholder ∈ elements ∧ .atom name ∈ bindings.image placeholder := by
  constructor
  · intro member
    obtain ⟨element, occurs, inImage⟩ := List.mem_flatMap.mp member
    cases element with
    | atom placeholder => exact ⟨placeholder, occurs, inImage⟩
    | opening => cases List.mem_singleton.mp inImage
    | closing => cases List.mem_singleton.mp inImage
    | conj => cases List.mem_singleton.mp inImage
    | disj => cases List.mem_singleton.mp inImage
    | neg => cases List.mem_singleton.mp inImage
    | truth value => cases List.mem_singleton.mp inImage
  · rintro ⟨placeholder, occurs, inImage⟩
    exact List.mem_flatMap.mpr ⟨.atom placeholder, occurs, inImage⟩

end Bindings

end BoolSimplify
