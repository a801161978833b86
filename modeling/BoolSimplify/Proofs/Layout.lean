/-
Text and tokens.

A fragment is a nonempty run or a single standalone character.  A text in normal
layout keeps neighbouring fragments apart where they could be taken for one.  The
main statements say that tokens that can be read from some text at all are read
back from their normal layout, and that these are the lists whose words are
canonical, so that two texts have the same normal layout just when they have the
same tokens.
-/

import BoolSimplify.Token.Fragments
import BoolSimplify.Token.Layout

namespace BoolSimplify

/-! ### Fragments -/

inductive IsFragment : List Char → Prop where
  | run (chars : List Char) (nonempty : chars ≠ [])
      (allRun : ∀ char ∈ chars, isRunChar char = true) : IsFragment chars
  | standalone (char : Char) (isAlone : isStandalone char = true) : IsFragment [char]

theorem IsFragment.of_all (chars : List Char) (nonempty : chars.isEmpty = false)
    (allRun : chars.all isRunChar = true) : IsFragment chars := by
  apply IsFragment.run chars
  · rintro rfl
    cases nonempty
  · exact List.all_eq_true.mp allRun

theorem not_blank_of_standalone (char : Char) (isAlone : isStandalone char = true) :
    isBlank char = false := by
  unfold isStandalone at isAlone
  split at isAlone <;> first | rfl | cases isAlone

theorem isRunChar_iff (char : Char) :
    isRunChar char = true ↔ isBlank char = false ∧ isStandalone char = false := by
  simp only [isRunChar, Bool.and_eq_true, Bool.not_eq_true']

theorem fragmentsOf_blank (char : Char) (rest : List Char) (blank : isBlank char = true) :
    fragmentsOf (char :: rest) = fragmentsOf rest := by
  rw [fragmentsOf, if_pos blank]

theorem fragmentsOf_standalone (char : Char) (rest : List Char)
    (isAlone : isStandalone char = true) :
    fragmentsOf (char :: rest) = [char] :: fragmentsOf rest := by
  have notBlank : ¬isBlank char = true := by
    rw [not_blank_of_standalone char isAlone]
    exact Bool.false_ne_true
  have notRun : ¬(isRunChar char && rest.head?.any isRunChar) = true := by
    rw [Bool.and_eq_true, isRunChar_iff, isAlone]
    exact fun both => Bool.noConfusion both.1.2
  rw [fragmentsOf, if_neg notBlank, if_neg notRun]

theorem fragmentsOf_run (run rest : List Char) (nonempty : run ≠ [])
    (allRun : ∀ char ∈ run, isRunChar char = true) (ends : rest.head?.any isRunChar = false) :
    fragmentsOf (run ++ rest) = run :: fragmentsOf rest := by
  induction run with
  | nil => exact absurd rfl nonempty
  | cons char run ih =>
      have isRun := allRun char List.mem_cons_self
      have notBlank : ¬isBlank char = true := by
        rw [((isRunChar_iff char).mp isRun).1]
        exact Bool.false_ne_true
      rw [List.cons_append, fragmentsOf, if_neg notBlank, isRun, Bool.true_and]
      cases run with
      | nil => rw [List.nil_append, ends, if_neg Bool.false_ne_true]
      | cons second run =>
          have secondRun := allRun second (List.mem_cons_of_mem char List.mem_cons_self)
          have later := ih (List.cons_ne_nil second run)
            (fun other member => allRun other (List.mem_cons_of_mem char member))
          rw [List.cons_append] at later ⊢
          rw [List.head?_cons, Option.any_some, if_pos secondRun, later]

theorem fragmentsOf_head (char : Char) (rest : List Char) (notBlank : isBlank char = false) :
    ∃ run others, fragmentsOf (char :: rest) = (char :: run) :: others := by
  have visible : ¬isBlank char = true := by
    rw [notBlank]
    exact Bool.false_ne_true
  rw [fragmentsOf, if_neg visible]
  by_cases goesOn : (isRunChar char && rest.head?.any isRunChar) = true
  · rw [if_pos goesOn]
    cases fragmentsOf rest with
    | nil => exact ⟨[], [], rfl⟩
    | cons run others => exact ⟨run, others, rfl⟩
  · rw [if_neg goesOn]
    exact ⟨[], fragmentsOf rest, rfl⟩

theorem isFragment_cons (char : Char) (run : List Char) (isRun : isRunChar char = true)
    (goesOn : run.head?.any isRunChar = true) (later : IsFragment run) :
    IsFragment (char :: run) := by
  cases later with
  | run _ nonempty allRun =>
      apply IsFragment.run _ (List.cons_ne_nil char run)
      intro other member
      rcases List.mem_cons.mp member with rfl | inRun
      · exact isRun
      · exact allRun other inRun
  | standalone alone isAlone =>
      rw [List.head?_cons, Option.any_some, isRunChar_iff, isAlone] at goesOn
      cases goesOn.2

theorem isFragment_of_mem (chars : List Char) :
    ∀ fragment ∈ fragmentsOf chars, IsFragment fragment := by
  induction chars with
  | nil => exact fun fragment member => absurd member List.not_mem_nil
  | cons char rest ih =>
      rw [fragmentsOf]
      by_cases blank : isBlank char = true
      · rw [if_pos blank]
        exact ih
      · rw [if_neg blank]
        have single : IsFragment [char] := by
          cases isAlone : isStandalone char with
          | true => exact .standalone char isAlone
          | false =>
              apply IsFragment.run _ (List.cons_ne_nil char [])
              intro other member
              rw [List.mem_singleton.mp member, isRunChar_iff]
              exact ⟨Bool.eq_false_iff.mpr blank, isAlone⟩
        by_cases goesOn : (isRunChar char && rest.head?.any isRunChar) = true
        · rw [if_pos goesOn]
          obtain ⟨isRun, nextRun⟩ := Bool.and_eq_true_iff.mp goesOn
          cases rest with
          | nil => cases nextRun
          | cons next rest =>
              rw [List.head?_cons, Option.any_some] at nextRun
              obtain ⟨run, others, fragmentsEq⟩ :=
                fragmentsOf_head next rest ((isRunChar_iff next).mp nextRun).1
              rw [fragmentsEq] at ih ⊢
              intro fragment member
              rcases List.mem_cons.mp member with rfl | inOthers
              · exact isFragment_cons char _ isRun nextRun (ih _ List.mem_cons_self)
              · exact ih fragment (List.mem_cons_of_mem _ inOthers)
        · rw [if_neg goesOn]
          intro fragment member
          rcases List.mem_cons.mp member with rfl | inRest
          · exact single
          · exact ih fragment inRest

/-! ### Legible tokens -/

namespace Token

theorem text_ofFragment (fragment : String) : (ofFragment fragment).text = fragment := by
  unfold ofFragment
  split <;> rfl

/-- A token is legible when its text is a fragment and reads as the token.  All
tokens but words are legible. -/
structure Legible (token : Token) : Prop where
  isFragment : IsFragment token.text.toList
  reads : ofFragment token.text = token

theorem legible_ofFragment (fragment : String) (isFragment : IsFragment fragment.toList) :
    (ofFragment fragment).Legible := by
  have sameText := text_ofFragment fragment
  exact ⟨by rwa [sameText], by rw [sameText]⟩

theorem legible_of_ne_word (token : Token) (notWord : ∀ text, token ≠ .word text) :
    token.Legible := by
  cases token with
  | opening => exact ⟨.standalone _ rfl, rfl⟩
  | closing => exact ⟨.standalone _ rfl, rfl⟩
  | conj => exact ⟨.standalone _ rfl, rfl⟩
  | disj => exact ⟨.standalone _ rfl, rfl⟩
  | neg => exact ⟨.standalone _ rfl, rfl⟩
  | truth value =>
      cases value with
      | true => exact ⟨.of_all _ rfl rfl, rfl⟩
      | false => exact ⟨.of_all _ rfl rfl, rfl⟩
  | atom name =>
      cases name with
      | letter known =>
          cases known with
          | a => exact ⟨.of_all _ rfl rfl, rfl⟩
          | b => exact ⟨.of_all _ rfl rfl, rfl⟩
          | c => exact ⟨.of_all _ rfl rfl, rfl⟩
      | word text => exact absurd rfl (notWord text)

end Token

theorem legible_of_mem_tokenize (text : String) :
    ∀ token ∈ tokenize text, token.Legible := by
  intro token member
  obtain ⟨fragment, fragmentMember, rfl⟩ := List.mem_map.mp member
  obtain ⟨chars, charsMember, rfl⟩ := List.mem_map.mp fragmentMember
  apply Token.legible_ofFragment
  rw [String.toList_ofList]
  exact isFragment_of_mem _ chars charsMember

theorem legible_of_words (tokens : List Token)
    (words : ∀ text, .word text ∈ tokens → (Token.word text).Legible) :
    ∀ token ∈ tokens, token.Legible := by
  intro token member
  by_cases isWord : ∃ text, token = .word text
  · obtain ⟨text, rfl⟩ := isWord
    exact words text member
  · exact token.legible_of_ne_word (fun text same => isWord ⟨text, same⟩)

/-! ### Normal layout -/

/-- What follows a run in normal layout does not continue it. -/
theorem layoutAfter_ends (previous : Token) (tokens : List Token)
    (run : ∀ char ∈ previous.text.toList, isRunChar char = true) :
    (layoutAfter previous tokens).head?.any isRunChar = false := by
  cases tokens with
  | nil => rfl
  | cons token rest =>
      cases glued : isGlued previous token with
      | false =>
          rw [layoutAfter, glued, if_neg Bool.false_ne_true]
          rfl
      | true =>
          have closes : token = .closing := by
            cases previous with
            | neg => exact absurd (run '~' List.mem_cons_self) (by decide)
            | opening => exact absurd (run '(' List.mem_cons_self) (by decide)
            | closing => exact eq_of_beq glued
            | conj => exact eq_of_beq glued
            | disj => exact eq_of_beq glued
            | truth value => exact eq_of_beq glued
            | atom name => exact eq_of_beq glued
          subst closes
          rw [layoutAfter, if_pos glued]
          rfl

theorem fragmentsOf_text (token : Token) (rest : List Token) (legible : token.Legible) :
    fragmentsOf (token.text.toList ++ layoutAfter token rest) =
      token.text.toList :: fragmentsOf (layoutAfter token rest) := by
  have isFragment := legible.isFragment
  generalize textEq : token.text.toList = chars at isFragment ⊢
  cases isFragment with
  | run _ nonempty allRun =>
      apply fragmentsOf_run chars _ nonempty allRun
      rw [← textEq] at allRun
      exact layoutAfter_ends token rest allRun
  | standalone char isAlone => exact fragmentsOf_standalone char _ isAlone

theorem fragmentsOf_layoutAfter (previous : Token) (tokens : List Token)
    (legible : ∀ token ∈ tokens, token.Legible) :
    fragmentsOf (layoutAfter previous tokens) = tokens.map (·.text.toList) := by
  induction tokens generalizing previous with
  | nil => rfl
  | cons token rest ih =>
      have later := ih token (fun other member => legible other (List.mem_cons_of_mem token member))
      have here := fragmentsOf_text token rest (legible token List.mem_cons_self)
      rw [layoutAfter, List.append_assoc, List.map_cons, ← later, ← here]
      by_cases glued : isGlued previous token = true
      · rw [if_pos glued, List.nil_append]
      · rw [if_neg glued, List.singleton_append, fragmentsOf_blank _ _ rfl]

theorem fragmentsOf_layout (tokens : List Token) (legible : ∀ token ∈ tokens, token.Legible) :
    fragmentsOf (layout tokens) = tokens.map (·.text.toList) := by
  cases tokens with
  | nil => rfl
  | cons token rest =>
      have later := fragmentsOf_layoutAfter token rest
        (fun other member => legible other (List.mem_cons_of_mem token member))
      rw [layout, fragmentsOf_text token rest (legible token List.mem_cons_self), later,
        List.map_cons]

theorem tokenize_of_fragments (text : String) (tokens : List Token)
    (legible : ∀ token ∈ tokens, token.Legible)
    (split : fragmentsOf text.toList = tokens.map (·.text.toList)) : tokenize text = tokens := by
  unfold tokenize fragments
  rw [split, List.map_map, List.map_map]
  clear split
  induction tokens with
  | nil => rfl
  | cons token rest ih =>
      have later := ih (fun other member => legible other (List.mem_cons_of_mem token member))
      have reads := (legible token List.mem_cons_self).reads
      rw [List.map_cons, later]
      congr 1
      simpa only [Function.comp_apply, String.ofList_toList] using reads

theorem tokenize_render (tokens : List Token) (legible : ∀ token ∈ tokens, token.Legible) :
    tokenize (render tokens) = tokens := by
  apply tokenize_of_fragments _ _ legible
  rw [render, String.toList_ofList, fragmentsOf_layout tokens legible]

/-! ### Canonical words -/

/-- A text is canonical for a word when nothing in it ends a fragment and it is not
the text of a letter or a truth value. -/
structure CanonicalWord (text : String) : Prop where
  nonempty : text ≠ ""
  notBlank : ∀ char ∈ text.toList, isBlank char = false
  notStandalone : ∀ char ∈ text.toList, char ∉ ['(', ')', '&', '|', '~']
  unknown : text ∉ ["A", "B", "C", "True", "False"]

instance (text : String) : Decidable (CanonicalWord text) :=
  decidable_of_iff
    (text ≠ "" ∧
      (text.toList.all fun char => !isBlank char && !(['(', ')', '&', '|', '~'].contains char)) ∧
        text ∉ ["A", "B", "C", "True", "False"]) (by
    simp only [List.all_eq_true, Bool.and_eq_true, Bool.not_eq_true', List.contains_eq_mem,
      decide_eq_false_iff_not]
    constructor
    · intro ⟨nonempty, chars, unknown⟩
      exact ⟨nonempty, fun char member => (chars char member).1,
        fun char member => (chars char member).2, unknown⟩
    · intro canonical
      refine ⟨canonical.nonempty, ?_, canonical.unknown⟩
      exact fun char member => ⟨canonical.notBlank char member, canonical.notStandalone char member⟩)

theorem isStandalone_iff (char : Char) :
    isStandalone char = true ↔ char ∈ ['(', ')', '&', '|', '~'] := by
  constructor
  · intro isAlone
    unfold isStandalone at isAlone
    split at isAlone
    all_goals first | decide | cases isAlone
  · intro member
    simp only [List.mem_cons, List.not_mem_nil, or_false] at member
    rcases member with rfl | rfl | rfl | rfl | rfl
    all_goals rfl

theorem CanonicalWord.isRunChar {text : String} (canonical : CanonicalWord text) (char : Char)
    (member : char ∈ text.toList) : isRunChar char = true := by
  rw [isRunChar_iff, ← Bool.not_eq_true (isStandalone char), isStandalone_iff]
  exact ⟨canonical.notBlank char member, canonical.notStandalone char member⟩

namespace Token

theorem ofFragment_eq_word_iff (text : String) :
    ofFragment text = .word text ↔
      text ∉ ["A", "B", "C", "True", "False"] ∧ text ∉ ["(", ")", "&", "|", "~"] := by
  constructor
  · intro reads
    constructor
    all_goals
      intro member
      simp only [List.mem_cons, List.not_mem_nil, or_false] at member
      rcases member with rfl | rfl | rfl | rfl | rfl
      all_goals cases reads
  · rintro ⟨notName, notMark⟩
    unfold ofFragment
    split
    all_goals first | rfl | exact absurd (by decide) notName | exact absurd (by decide) notMark

theorem legible_word_iff (text : String) : (Token.word text).Legible ↔ CanonicalWord text := by
  constructor
  · rintro ⟨isFragment, reads⟩
    obtain ⟨notName, notMark⟩ := (ofFragment_eq_word_iff text).mp reads
    change IsFragment text.toList at isFragment
    generalize charsEq : text.toList = chars at isFragment
    cases isFragment with
    | run _ nonempty allRun =>
        have runChar (char : Char) (member : char ∈ text.toList) :=
          (isRunChar_iff char).mp (allRun char (charsEq ▸ member))
        refine ⟨?_, fun char member => (runChar char member).1, ?_, notName⟩
        · rintro rfl
          exact nonempty charsEq.symm
        · intro char member isAlone
          rw [← isStandalone_iff, (runChar char member).2] at isAlone
          cases isAlone
    | standalone char isAlone =>
        have textEq : text = String.ofList [char] := by
          rw [← charsEq, String.ofList_toList]
        have isMark := (isStandalone_iff char).mp isAlone
        rw [textEq] at notMark
        simp only [List.mem_cons, List.not_mem_nil, or_false] at isMark
        rcases isMark with rfl | rfl | rfl | rfl | rfl
        all_goals exact absurd (by decide) notMark
  · intro canonical
    refine ⟨.run _ ?_ canonical.isRunChar, (ofFragment_eq_word_iff text).mpr ⟨canonical.unknown, ?_⟩⟩
    · intro empty
      exact canonical.nonempty (String.toList_eq_nil_iff.mp empty)
    · intro isMark
      have notStandalone := canonical.notStandalone
      simp only [List.mem_cons, List.not_mem_nil, or_false] at isMark
      rcases isMark with rfl | rfl | rfl | rfl | rfl
      all_goals exact absurd (by decide) (notStandalone _ List.mem_cons_self)

end Token

/-- The lists that are read back from their normal layout are those whose words are
canonical.  Every text is read as such a list, so that its normal layout tells its
tokens and stays the same when it is laid out again. -/
theorem tokenize_render_iff :
    (∀ tokens : List Token, tokenize (render tokens) = tokens ↔
        ∀ word, .word word ∈ tokens → CanonicalWord word) ∧
      (∀ text word, .word word ∈ tokenize text → CanonicalWord word) ∧
      (∀ first second, render (tokenize first) = render (tokenize second) ↔
        tokenize first = tokenize second) ∧
      ∀ text, render (tokenize (render (tokenize text))) = render (tokenize text) := by
  have readBack (text : String) : tokenize (render (tokenize text)) = tokenize text :=
    tokenize_render _ (legible_of_mem_tokenize text)
  have canonical (text word : String) (member : .word word ∈ tokenize text) :
      CanonicalWord word :=
    (Token.legible_word_iff word).mp (legible_of_mem_tokenize text _ member)
  refine ⟨fun tokens => ⟨?_, ?_⟩, canonical, fun first second => ⟨?_, ?_⟩, ?_⟩
  · intro same word member
    rw [← same] at member
    exact canonical _ word member
  · intro allCanonical
    apply tokenize_render
    apply legible_of_words
    exact fun word member => (Token.legible_word_iff word).mpr (allCanonical word member)
  · intro sameLayout
    rw [← readBack first, sameLayout, readBack]
  · exact congrArg render
  · exact fun text => congrArg render (readBack text)

theorem tokenize_render_garbled :
    (∀ word, Token.word word ∈
        [.closing, .neg, .closing, .word "é", .word "TrueA", .opening, .neg, .letter .b, .disj] →
      CanonicalWord word) ∧
    tokenize ") ~) é TrueA (~B |" =
      [.closing, .neg, .closing, .word "é", .word "TrueA", .opening, .neg, .letter .b, .disj] := by
  have canonical : ∀ word, Token.word word ∈
      [.closing, .neg, .closing, .word "é", .word "TrueA", .opening, .neg, .letter .b, .disj] →
      CanonicalWord word := by
    intro word member
    simp only [List.mem_cons, List.not_mem_nil, or_false, reduceCtorEq, false_or,
      Symbol.atom.injEq, Name.word.injEq] at member
    rcases member with rfl | rfl
    all_goals decide
  have laidOut : render
      [.closing, .neg, .closing, .word "é", .word "TrueA", .opening, .neg, .letter .b, .disj] =
        ") ~) é TrueA (~B |" := by
    decide +kernel
  have readBack := (tokenize_render_iff.1 _).mpr canonical
  rw [laidOut] at readBack
  exact ⟨canonical, readBack⟩

end BoolSimplify
