/-
Sides of rules written as expressions.

A side of a rule without a run becomes the text of an expression when letters take the
place of its slots.  The main statement says that a declared rule and such texts agree:
the rule matches the text of its pattern from end to end and puts the tokens of the text
of its replacement in its place.  Whatever else the rule matches, no element of the
replacement is left out.
-/

import BoolSimplify.Proofs.Identity
import BoolSimplify.Proofs.Layout
import BoolSimplify.Proofs.Notation
import Mathlib.Data.List.Forall2

namespace BoolSimplify

/-! ### Writing -/

/-- What is written for an element in an expression, with letters in place of slots. -/
def Element.textWith (letters : Slot → Letter) : Element → String
  | .atom (.slot slot) => (letters slot).text
  | element => element.text

/-- The characters that write elements as an expression, perhaps after an operand that
stands right before them.  White space may stand anywhere between the elements, and must
between two operands without parentheses. -/
inductive Spells (letters : Slot → Letter) :
    (afterWord : Bool) → List Element → List Char → Prop where
  | done (afterWord : Bool) : Spells letters afterWord [] []
  | space {afterWord : Bool} {elements : List Element} {chars : List Char} (char : Char)
      (blank : isBlank char = true) (later : Spells letters false elements chars) :
      Spells letters afterWord elements (char :: chars)
  | element {afterWord : Bool} {elements : List Element} {chars : List Char} (element : Element)
      (apart : (afterWord && element.isAtomic) = false)
      (later : Spells letters element.isAtomic elements chars) :
      Spells letters afterWord (element :: elements)
        ((element.textWith letters).toList ++ chars)

def spaced (letters : Slot → Letter) (elements : List Element) : String :=
  " ".intercalate (elements.map (Element.textWith letters))

theorem Token.text_of_not_atomic (token : Token) (notAtomic : token.isAtomic = false) :
    ∃ char, isStandalone char = true ∧ token.text.toList = [char] := by
  cases token with
  | opening | closing | conj | disj | neg => exact ⟨_, rfl, rfl⟩
  | truth value | atom name => cases notAtomic

theorem Element.exists_token (letters : Slot → Letter) (element : Element)
    (notRun : element ≠ .run) :
    ∃ token : Token, element.expand (Bindings.ofLetters letters).image = [token] ∧
      element.textWith letters = token.text ∧ element.isAtomic = token.isAtomic ∧
        token.Legible := by
  have legible (token : Token) (notWord : ∀ text, token ≠ .word text) :=
    token.legible_of_ne_word notWord
  cases element with
  | opening => exact ⟨.opening, rfl, rfl, rfl, legible _ nofun⟩
  | closing => exact ⟨.closing, rfl, rfl, rfl, legible _ nofun⟩
  | conj => exact ⟨.conj, rfl, rfl, rfl, legible _ nofun⟩
  | disj => exact ⟨.disj, rfl, rfl, rfl, legible _ nofun⟩
  | neg => exact ⟨.neg, rfl, rfl, rfl, legible _ nofun⟩
  | truth value =>
      refine ⟨.truth value, rfl, ?_, rfl, legible _ nofun⟩
      cases value <;> rfl
  | atom placeholder =>
      cases placeholder with
      | slot slot => exact ⟨.letter (letters slot), rfl, rfl, rfl, legible _ nofun⟩
      | run => exact absurd rfl notRun

namespace Spells

variable {letters : Slot → Letter} {afterWord : Bool} {elements : List Element} {chars : List Char}

theorem weaken (spells : Spells letters true elements chars) :
    Spells letters afterWord elements chars := by
  cases spells with
  | done => exact .done afterWord
  | space char blank later => exact .space char blank later
  | element element apart later =>
      refine .element element ?_ later
      rw [Bool.true_and] at apart
      rw [apart, Bool.and_false]

theorem endsRun (spells : Spells letters true elements chars) :
    chars.head?.any isRunChar = false := by
  cases spells with
  | done => rfl
  | space char blank later =>
      rw [List.head?_cons, Option.any_some, isRunChar, blank]
      rfl
  | element element apart later =>
      rw [Bool.true_and] at apart
      have notRun : element ≠ .run := by
        rintro rfl
        cases apart
      obtain ⟨token, _, sameText, sameKind, _⟩ := element.exists_token letters notRun
      obtain ⟨char, isAlone, isText⟩ := token.text_of_not_atomic (sameKind ▸ apart)
      rw [sameText, isText, List.cons_append, List.head?_cons, Option.any_some, isRunChar, isAlone,
        Bool.not_true, Bool.and_false]

theorem fragmentsOf_eq (spells : Spells letters afterWord elements chars)
    (noRun : Element.run ∉ elements) :
    fragmentsOf chars =
      ((Bindings.ofLetters letters).fill elements).map fun token => token.text.toList := by
  induction spells with
  | done afterWord => rfl
  | space char blank later ih => rw [fragmentsOf_blank _ _ blank, ih noRun]
  | @element afterWord elements chars element apart later ih =>
      obtain ⟨notRun, noRunLater⟩ := not_or.mp (mt List.mem_cons.mpr noRun)
      obtain ⟨token, expanded, sameText, sameKind, legible⟩ :=
        element.exists_token letters (Ne.symm notRun)
      rw [Bindings.fill_cons, expanded, List.singleton_append, List.map_cons, ← ih noRunLater,
        sameText]
      rw [sameKind] at later
      cases atomic : token.isAtomic with
      | true =>
          rw [atomic] at later
          have isFragment := legible.isFragment
          generalize token.text.toList = text at isFragment ⊢
          cases isFragment with
          | run _ nonempty allRun => exact fragmentsOf_run _ _ nonempty allRun later.endsRun
          | standalone char isAlone => exact fragmentsOf_standalone char _ isAlone
      | false =>
          obtain ⟨char, isAlone, isText⟩ := token.text_of_not_atomic atomic
          rw [isText]
          exact fragmentsOf_standalone char _ isAlone

/-- The tokens of a text that writes elements are the elements filled in with the letters. -/
theorem tokenize_eq {text : String} (spells : Spells letters afterWord elements text.toList)
    (noRun : Element.run ∉ elements) :
    tokenize text = (Bindings.ofLetters letters).fill elements := by
  apply tokenize_of_fragments _ _ _ (spells.fragmentsOf_eq noRun)
  apply legible_of_words
  intro word member
  obtain ⟨placeholder, occurs, inImage⟩ := (Bindings.atom_mem_fill _ _ _).mp member
  cases placeholder with
  | slot slot => cases List.mem_singleton.mp inImage
  | run => exact absurd occurs noRun

end Spells

theorem spells_spaced (letters : Slot → Letter) (elements : List Element) :
    Spells letters false elements (spaced letters elements).toList := by
  induction elements with
  | nil => exact .done false
  | cons element rest ih =>
      rw [spaced, List.map_cons]
      cases rest with
      | nil =>
          rw [List.map_nil, String.intercalate_singleton, ← List.append_nil (String.toList _)]
          exact .element element rfl (.done _)
      | cons next others =>
          rw [List.map_cons, String.intercalate_cons_cons, String.toList_append,
            String.toList_append, List.append_assoc]
          exact .element element rfl (.space ' ' rfl ih)

/-! ### Filling in -/

/-- What bindings put in the place of one element of a replacement: the token of a literal,
the letter of a slot, or all of the run. -/
inductive Bindings.Emits (bindings : Bindings) : Element → List Token → Prop where
  | literal (element : Element) (token : Token) (stands : element.literal? = some token) :
      Emits bindings element [token]
  | slot (slot : Slot) (letter : Letter) (bound : bindings.letters slot = some letter) :
      Emits bindings (.atom (.slot slot)) [.letter letter]
  | run (nonempty : bindings.run ≠ []) : Emits bindings .run bindings.run

theorem Bindings.exists_parts (bindings : Bindings) (elements : List Element)
    (slotsBound : ∀ slot, .atom (.slot slot) ∈ elements →
      ∃ letter, bindings.letters slot = some letter)
    (runBound : Element.run ∈ elements → bindings.run ≠ []) :
    ∃ parts, List.Forall₂ bindings.Emits elements parts ∧
      bindings.fill elements = parts.flatten := by
  induction elements with
  | nil => exact ⟨[], .nil, rfl⟩
  | cons element rest ih =>
      obtain ⟨parts, emitted, written⟩ :=
        ih (fun slot occurs => slotsBound slot (List.mem_cons_of_mem element occurs))
          (fun occurs => runBound (List.mem_cons_of_mem element occurs))
      have here : bindings.Emits element (element.expand bindings.image) := by
        cases element with
        | opening => exact .literal _ .opening rfl
        | closing => exact .literal _ .closing rfl
        | conj => exact .literal _ .conj rfl
        | disj => exact .literal _ .disj rfl
        | neg => exact .literal _ .neg rfl
        | truth value => exact .literal _ (.truth value) rfl
        | atom placeholder =>
            cases placeholder with
            | run => exact .run (runBound List.mem_cons_self)
            | slot slot =>
                obtain ⟨letter, bound⟩ := slotsBound slot List.mem_cons_self
                simp only [Symbol.expand, image, bound, Option.map_some, Option.toList_some]
                exact .slot slot letter bound
      refine ⟨_ :: parts, .cons here emitted, ?_⟩
      rw [fill_cons, written, List.flatten_cons]

theorem Match.extendAll_bound_run (found result : Match) (pattern : List Element)
    (matched : found.extendAll pattern = some result) (occurs : Element.run ∈ pattern) :
    ∃ before after reached, pattern = before ++ .run :: after ∧ Element.run ∉ after ∧
      found.extendAll before = some reached ∧
      result.bindings.run = leadingRun reached.rest ∧ result.bindings.run ≠ [] := by
  induction pattern generalizing found with
  | nil => cases occurs
  | cons element pattern ih =>
      obtain ⟨next, extended, later⟩ := Option.bind_eq_some_iff.mp matched
      by_cases occursLater : Element.run ∈ pattern
      · obtain ⟨before, after, reached, rfl, last, matchedBefore, isRun⟩ :=
          ih next later occursLater
        refine ⟨element :: before, after, reached, rfl, last, ?_, isRun⟩
        rw [extendAll, extended, Option.bind_some, matchedBefore]
      · have isLast : element = .run := by
          rcases List.mem_cons.mp occurs with same | inRest
          · exact same.symm
          · exact absurd inRest occursLater
        subst isLast
        have kept := extendAll_run next result pattern later occursLater
        refine ⟨[], pattern, found, rfl, occursLater, rfl, ?_⟩
        cases extends_of_extend found next _ extended with
        | run rest nonempty restEq =>
            rw [kept]
            exact ⟨rfl, nonempty⟩
        | literal _ token rest stands restEq => cases stands

/-! ### Declared rules -/

namespace RuleText

/-- A declared rule without a run matches the text of its pattern from end to end, however
it is written and with whatever letters, and puts the tokens of the text of its replacement
in its place.  In the place of any match, each element of the replacement is one token, or
all of the bound run. -/
theorem Declaration.notations_agree (source : String) (declaration : Declaration)
    (accepted : Declaration.parse source = .ok declaration) (family : Family) :
    ∃ rule, Rule.ofSides? family declaration.pattern declaration.replacement = some rule ∧
      (∀ letters elements, Spells letters false elements (spaced letters elements).toList) ∧
      (Element.run ∉ declaration.pattern → ∀ letters patternText replacementText,
        Spells letters false declaration.pattern (String.toList patternText) →
        Spells letters false declaration.replacement (String.toList replacementText) →
        ∃ bindings, rule.match? (tokenize patternText) = some ⟨bindings, []⟩ ∧
          bindings.fill declaration.replacement = tokenize replacementText) ∧
      ∀ tokens found, rule.match? tokens = some found →
        (∃ parts, List.Forall₂ found.bindings.Emits declaration.replacement parts ∧
          found.bindings.fill declaration.replacement = parts.flatten) ∧
        (Element.run ∈ declaration.pattern → ∃ before after reached,
          declaration.pattern = before ++ .run :: after ∧ Element.run ∉ after ∧
            matchPrefix? before tokens = some reached ∧
            found.bindings.run = leadingRun reached.rest ∧ found.bindings.run ≠ []) := by
  have valid := Declaration.valid_of_parse accepted
  refine ⟨⟨family, declaration.pattern, declaration.replacement, valid.nonempty⟩,
    dif_pos valid.nonempty, spells_spaced, ?_, ?_⟩
  · intro noRun letters patternText replacementText writesPattern writesReplacement
    have replacementNoRun : Element.run ∉ declaration.replacement :=
      fun occurs => noRun (valid.bound .run occurs)
    obtain ⟨reached, matched, filled⟩ := Bindings.extendAll_ofLetters letters declaration.pattern
      declaration.replacement [] noRun replacementNoRun (fun slot => valid.bound (.slot slot))
    rw [List.append_nil, ← writesPattern.tokenize_eq noRun] at matched
    rw [← writesReplacement.tokenize_eq replacementNoRun] at filled
    exact ⟨reached, matched, filled⟩
  · intro tokens found matched
    have bound := Match.extendAll_bound_run _ found declaration.pattern matched
    refine ⟨found.bindings.exists_parts declaration.replacement ?_ ?_, bound⟩
    · exact fun slot occurs =>
        Match.extendAll_binds _ found _ matched slot (valid.bound (.slot slot) occurs)
    · intro occurs
      obtain ⟨_, _, _, _, _, _, _, nonempty⟩ := bound (valid.bound .run occurs)
      exact nonempty

def absorptionSample : Declaration :=
  ⟨"Absorption", [.x, .conj, .opening, .x, .disj, .y, .closing], [.x]⟩

def exchangeSample : Declaration :=
  ⟨"Exchange", [.x, .conj, .opening, .run, .closing], [.opening, .run, .closing, .conj, .x]⟩

theorem Declaration.notations_agree_samples :
    (parse "Absorption: X & (X | Y) => X" = .ok absorptionSample ∧
      ∃ rule : Rule, rule.pattern = absorptionSample.pattern ∧ ∃ bindings : Bindings,
        rule.match? (tokenize "B&( B|B)") = some ⟨bindings, []⟩ ∧
          bindings.fill absorptionSample.replacement = tokenize " B") ∧
    parse "Exchange: X & (E) => (E) & X" = .ok exchangeSample ∧
      ∃ rule : Rule, rule.pattern = exchangeSample.pattern ∧ ∃ found,
        rule.match? [.letter .a, .conj, .opening, .letter .c, .disj, .word "foo", .closing, .disj] =
            some found ∧
          ∃ parts, List.Forall₂ found.bindings.Emits exchangeSample.replacement parts ∧
            parts.flatten =
              [.opening, .letter .c, .disj, .word "foo", .closing, .conj, .letter .a] := by
  have accepted : parse "Absorption: X & (X | Y) => X" = .ok absorptionSample := by
    decide +kernel
  have exchanged : parse "Exchange: X & (E) => (E) & X" = .ok exchangeSample := by
    decide +kernel
  refine ⟨⟨accepted, ?_⟩, exchanged, ?_⟩
  · obtain ⟨rule, isRule, _, agrees, _⟩ := notations_agree _ _ accepted .absorption
    have group : Spells (fun _ => .b) false [.opening, .x, .disj, .y, .closing] "( B|B)".toList :=
      .element .opening rfl (.space ' ' rfl (.element .x rfl (.element .disj rfl
        (.element .y rfl (.element .closing rfl (.done false))))))
    have pattern : Spells (fun _ => .b) false absorptionSample.pattern "B&( B|B)".toList :=
      .element .x rfl (.element .conj rfl group)
    have replacement : Spells (fun _ => .b) false absorptionSample.replacement " B".toList :=
      .space ' ' rfl (.element .x rfl (.done true))
    obtain ⟨bindings, matched, filled⟩ := agrees (by decide) _ _ _ pattern replacement
    cases isRule
    exact ⟨_, rfl, bindings, matched, filled⟩
  · obtain ⟨rule, isRule, _, _, emits⟩ := notations_agree _ _ exchanged .identity
    cases isRule
    obtain ⟨⟨parts, emitted, written⟩, _⟩ := emits
      [.letter .a, .conj, .opening, .letter .c, .disj, .word "foo", .closing, .disj] _ rfl
    exact ⟨⟨.identity, exchangeSample.pattern, exchangeSample.replacement, by decide⟩, rfl, _, rfl,
      parts, emitted, written.symm⟩

end RuleText

end BoolSimplify
