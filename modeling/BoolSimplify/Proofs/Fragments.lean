/-
How a text falls into fragments.

White space and the characters that are fragments of their own end a run of other
characters.  Whether two texts can be split apart is therefore seen from the two
characters where they meet.  The main statement says that splitting drops white space
and nothing else, that its fragments are of two kinds, and that a text and one behind it
are split alone as they are split together just when no run goes on from one to the other.
-/

import BoolSimplify.Proofs.Layout

namespace BoolSimplify

/-! ### Cuts -/

/-- No run goes on behind the character, and none starts before it. -/
def EndsRun (char : Char) : Prop :=
  isBlank char = true ∨ char ∈ ['(', ')', '&', '|', '~']

theorem isRunChar_eq_false_iff (char : Char) : isRunChar char = false ↔ EndsRun char := by
  rw [← Bool.not_eq_true, isRunChar_iff, EndsRun, ← isStandalone_iff]
  cases isBlank char <;> cases isStandalone char <;> decide

instance (char : Char) : Decidable (EndsRun char) :=
  decidable_of_iff (isRunChar char = false) (isRunChar_eq_false_iff char)

/-- A text is a run when it is not empty and nothing in it ends a run. -/
structure IsRun (text : String) : Prop where
  nonempty : text ≠ ""
  goesOn : ∀ char ∈ text.toList, ¬EndsRun char

theorem IsRun.isRunChar {text : String} (isRun : IsRun text) (char : Char)
    (member : char ∈ text.toList) : isRunChar char = true := by
  rw [← Bool.not_eq_false, isRunChar_eq_false_iff]
  exact isRun.goesOn char member

theorem IsFragment.mark_or_run {text : String} (isFragment : IsFragment text.toList) :
    text ∈ ["(", ")", "&", "|", "~"] ∨ IsRun text := by
  generalize charsEq : text.toList = chars at isFragment
  cases isFragment with
  | run _ nonempty allRun =>
      refine .inr ⟨?_, ?_⟩
      · rintro rfl
        exact nonempty charsEq.symm
      · intro char member
        rw [← isRunChar_eq_false_iff, allRun char (charsEq ▸ member)]
        exact Bool.noConfusion
  | standalone char isAlone =>
      have textEq : text = String.ofList [char] := by
        rw [← charsEq, String.ofList_toList]
      have isMark := (isStandalone_iff char).mp isAlone
      simp only [List.mem_cons, List.not_mem_nil, or_false] at isMark
      rw [textEq]
      rcases isMark with rfl | rfl | rfl | rfl | rfl
      all_goals exact .inl (by decide)

/-- No run goes on from the first text to the second one. -/
def CutBetween (first second : String) : Prop :=
  first = "" ∨ second = "" ∨ (∃ char ∈ first.toList.getLast?, EndsRun char) ∨
    ∃ char ∈ second.toList.head?, EndsRun char

theorem any_isRunChar_eq_false_iff (neighbour : Option Char) :
    neighbour.any isRunChar = false ↔ neighbour = none ∨ ∃ char ∈ neighbour, EndsRun char := by
  cases neighbour with
  | none => exact iff_of_true rfl (.inl rfl)
  | some char =>
      simp only [Option.any_some, isRunChar_eq_false_iff, reduceCtorEq, false_or, Option.mem_def,
        Option.some.injEq, exists_eq_left']

theorem cutBetween_iff (first second : String) :
    CutBetween first second ↔
      first.toList.getLast?.any isRunChar = false ∨ second.toList.head?.any isRunChar = false := by
  rw [any_isRunChar_eq_false_iff, any_isRunChar_eq_false_iff, List.getLast?_eq_none_iff,
    List.head?_eq_none_iff, String.toList_eq_nil_iff, String.toList_eq_nil_iff, CutBetween]
  constructor
  · rintro (empty | empty | ends | ends)
    · exact .inl (.inl empty)
    · exact .inr (.inl empty)
    · exact .inl (.inr ends)
    · exact .inr (.inr ends)
  · rintro ((empty | ends) | (empty | ends))
    · exact .inl empty
    · exact .inr (.inr (.inl ends))
    · exact .inr (.inl empty)
    · exact .inr (.inr (.inr ends))

/-! ### One character more -/

theorem fragmentsOf_goesOn (char : Char) (rest : List Char)
    (goesOn : (isRunChar char && rest.head?.any isRunChar) = true) :
    ∃ run others, fragmentsOf rest = run :: others ∧
      fragmentsOf (char :: rest) = (char :: run) :: others := by
  obtain ⟨isRun, nextRun⟩ := Bool.and_eq_true_iff.mp goesOn
  have visible : ¬isBlank char = true := by
    rw [((isRunChar_iff char).mp isRun).1]
    exact Bool.false_ne_true
  cases rest with
  | nil => cases nextRun
  | cons next rest =>
      rw [List.head?_cons, Option.any_some] at nextRun
      obtain ⟨run, others, behind⟩ :=
        fragmentsOf_head next rest ((isRunChar_iff next).mp nextRun).1
      refine ⟨next :: run, others, behind, ?_⟩
      rw [fragmentsOf, if_neg visible, if_pos goesOn, behind]

theorem fragmentsOf_stops (char : Char) (rest : List Char) (visible : isBlank char = false)
    (stops : (isRunChar char && rest.head?.any isRunChar) = false) :
    fragmentsOf (char :: rest) = [char] :: fragmentsOf rest := by
  rw [fragmentsOf, visible, if_neg Bool.false_ne_true, stops, if_neg Bool.false_ne_true]

theorem flatten_fragmentsOf (chars : List Char) :
    (fragmentsOf chars).flatten = chars.filter fun char => !isBlank char := by
  induction chars with
  | nil => rfl
  | cons char rest ih =>
      cases blank : isBlank char with
      | true =>
          rw [fragmentsOf_blank char rest blank, ih,
            List.filter_cons_of_neg (by rw [blank]; decide)]
      | false =>
          rw [List.filter_cons_of_pos (by rw [blank]; rfl), ← ih]
          cases goesOn : isRunChar char && rest.head?.any isRunChar with
          | true =>
              obtain ⟨run, others, behind, whole⟩ := fragmentsOf_goesOn char rest goesOn
              rw [whole, behind]
              rfl
          | false =>
              rw [fragmentsOf_stops char rest blank goesOn]
              rfl

/-! ### Two lists of characters -/

/-- Lists between which no run goes on have the same fragments together as alone. -/
theorem fragmentsOf_append (first second : List Char)
    (cut : first.getLast?.any isRunChar = false ∨ second.head?.any isRunChar = false) :
    fragmentsOf (first ++ second) = fragmentsOf first ++ fragmentsOf second := by
  induction first with
  | nil => rfl
  | cons char rest ih =>
      have later : fragmentsOf (rest ++ second) = fragmentsOf rest ++ fragmentsOf second := by
        cases rest with
        | nil => rfl
        | cons next rest => exact ih (by rwa [List.getLast?_cons_cons] at cut)
      have alike : (isRunChar char && (rest ++ second).head?.any isRunChar) =
          (isRunChar char && rest.head?.any isRunChar) := by
        cases rest with
        | nil =>
            rw [List.nil_append, List.head?_nil, Option.any_none, Bool.and_false]
            rcases cut with ends | ends
            · rw [List.getLast?_singleton, Option.any_some] at ends
              rw [ends, Bool.false_and]
            · rw [ends, Bool.and_false]
        | cons next rest => rfl
      rw [List.cons_append]
      cases blank : isBlank char with
      | true => rw [fragmentsOf_blank _ _ blank, fragmentsOf_blank _ _ blank, later]
      | false =>
          cases goesOn : isRunChar char && rest.head?.any isRunChar with
          | true =>
              obtain ⟨run, others, behind, whole⟩ := fragmentsOf_goesOn char rest goesOn
              obtain ⟨runBoth, othersBoth, behindBoth, wholeBoth⟩ :=
                fragmentsOf_goesOn char (rest ++ second) (alike.trans goesOn)
              rw [later, behind, List.cons_append, List.cons.injEq] at behindBoth
              rw [wholeBoth, whole, ← behindBoth.1, ← behindBoth.2, List.cons_append]
          | false =>
              rw [fragmentsOf_stops _ _ blank goesOn,
                fragmentsOf_stops _ _ blank (alike.trans goesOn), later, List.cons_append]

theorem fragmentsOf_of_all_run (run : List Char) (nonempty : run ≠ [])
    (allRun : ∀ char ∈ run, isRunChar char = true) : fragmentsOf run = [run] := by
  have alone := fragmentsOf_run run [] nonempty allRun rfl
  rwa [List.append_nil] at alone

theorem exists_leading_run (chars : List Char) (starts : chars.head?.any isRunChar = true) :
    ∃ run rest, chars = run ++ rest ∧ run ≠ [] ∧ (∀ char ∈ run, isRunChar char = true) ∧
      rest.head?.any isRunChar = false := by
  refine ⟨chars.takeWhile isRunChar, chars.dropWhile isRunChar,
    List.takeWhile_append_dropWhile.symm, ?_, List.all_eq_true.mp List.all_takeWhile, ?_⟩
  · cases chars with
    | nil => cases starts
    | cons char rest =>
        rw [List.head?_cons, Option.any_some] at starts
        rw [List.takeWhile_cons, if_pos starts]
        exact List.cons_ne_nil _ _
  · have stops := List.head?_dropWhile_not isRunChar chars
    cases next : (chars.dropWhile isRunChar).head? with
    | none => rfl
    | some char =>
        rw [next] at stops
        exact stops

theorem exists_trailing_run (chars : List Char) (ends : chars.getLast?.any isRunChar = true) :
    ∃ front run, chars = front ++ run ∧ run ≠ [] ∧ (∀ char ∈ run, isRunChar char = true) ∧
      front.getLast?.any isRunChar = false := by
  obtain ⟨run, rest, split, nonempty, allRun, stops⟩ :=
    exists_leading_run chars.reverse (by rwa [List.head?_reverse])
  refine ⟨rest.reverse, run.reverse, ?_, mt List.reverse_eq_nil_iff.mp nonempty, ?_, ?_⟩
  · rw [← List.reverse_append, ← split, List.reverse_reverse]
  · exact fun char member => allRun char (List.mem_reverse.mp member)
  · rwa [List.getLast?_reverse]

/-- Lists between which a run goes on have one fragment less together.  The last one of
the first list and the first one of the second list are joined. -/
theorem fragmentsOf_joined (first second : List Char)
    (ends : first.getLast?.any isRunChar = true) (starts : second.head?.any isRunChar = true) :
    ∃ before left right behind, fragmentsOf first = before ++ [left] ∧
      fragmentsOf second = right :: behind ∧
      fragmentsOf (first ++ second) = before ++ (left ++ right) :: behind := by
  obtain ⟨front, left, rfl, leftNonempty, leftRun, frontEnds⟩ := exists_trailing_run first ends
  obtain ⟨right, rest, rfl, rightNonempty, rightRun, restStarts⟩ := exists_leading_run second starts
  refine ⟨fragmentsOf front, left, right, fragmentsOf rest, ?_, ?_, ?_⟩
  · rw [fragmentsOf_append front left (.inl frontEnds),
      fragmentsOf_of_all_run left leftNonempty leftRun]
  · exact fragmentsOf_run right rest rightNonempty rightRun restStarts
  · have joinedRun : ∀ char ∈ left ++ right, isRunChar char = true := by
      intro char member
      exact (List.mem_append.mp member).elim (leftRun char) (rightRun char)
    have joined := fragmentsOf_run (left ++ right) rest
      (List.append_ne_nil_of_left_ne_nil leftNonempty right) joinedRun restStarts
    rw [List.append_assoc, fragmentsOf_append front _ (.inl frontEnds), ← joined,
      List.append_assoc]

theorem fragmentsOf_append_iff (first second : List Char) :
    fragmentsOf (first ++ second) = fragmentsOf first ++ fragmentsOf second ↔
      first.getLast?.any isRunChar = false ∨ second.head?.any isRunChar = false := by
  refine ⟨fun same => ?_, fragmentsOf_append first second⟩
  cases ends : first.getLast?.any isRunChar with
  | false => exact .inl rfl
  | true =>
      cases starts : second.head?.any isRunChar with
      | false => exact .inr rfl
      | true =>
          obtain ⟨before, left, right, behind, firstEq, secondEq, bothEq⟩ :=
            fragmentsOf_joined first second ends starts
          have lengths := congrArg List.length same
          rw [firstEq, secondEq, bothEq] at lengths
          simp only [List.length_append, List.length_cons, List.length_nil] at lengths
          omega

/-! ### Texts -/

theorem isFragment_of_mem_fragments (text fragment : String) (member : fragment ∈ fragments text) :
    IsFragment fragment.toList := by
  obtain ⟨chars, charsMember, rfl⟩ := List.mem_map.mp member
  rw [String.toList_ofList]
  exact isFragment_of_mem text.toList chars charsMember

theorem join_fragments (text : String) :
    String.join (fragments text) =
      String.ofList (text.toList.filter fun char => !isBlank char) := by
  rw [← String.toList_inj, String.toList_join, String.toList_ofList, ← flatten_fragmentsOf,
    fragments, List.flatMap_map]
  simp only [String.toList_ofList, List.flatMap_id']

theorem map_text_tokenize (text : String) : (tokenize text).map Token.text = fragments text := by
  rw [tokenize, List.map_map]
  simp only [Function.comp_def, Token.text_ofFragment, List.map_id']

theorem fragments_append_iff (first second : String) :
    fragments (first ++ second) = fragments first ++ fragments second ↔
      CutBetween first second := by
  rw [cutBetween_iff, ← fragmentsOf_append_iff, fragments, fragments, fragments,
    String.toList_append, ← List.map_append]
  exact List.map_inj_right fun _ _ => String.ofList_injective

theorem fragments_of_isRun (run : String) (isRun : IsRun run) : fragments run = [run] := by
  have nonempty : run.toList ≠ [] := mt String.toList_eq_nil_iff.mp isRun.nonempty
  rw [fragments, fragmentsOf_of_all_run run.toList nonempty isRun.isRunChar, List.map_singleton,
    String.ofList_toList]

/-- The fragments of a text are the text without its white space, cut into marks of one
character and runs.  Two texts are cut apart just where no run goes on from one to the
other, and a run is never cut.  The texts of the tokens are the fragments. -/
theorem fragments_split :
    (∀ text, String.join (fragments text) =
        String.ofList (text.toList.filter fun char => !isBlank char)) ∧
      (∀ text, ∀ fragment ∈ fragments text,
        fragment ∈ ["(", ")", "&", "|", "~"] ∨ IsRun fragment) ∧
      (∀ first second, fragments (first ++ second) = fragments first ++ fragments second ↔
        CutBetween first second) ∧
      (∀ run, IsRun run → fragments run = [run]) ∧
      ∀ text, String.join ((tokenize text).map Token.text) =
        String.ofList (text.toList.filter fun char => !isBlank char) := by
  refine ⟨join_fragments, ?_, fragments_append_iff, fragments_of_isRun, ?_⟩
  · exact fun text fragment member => (isFragment_of_mem_fragments text fragment member).mark_or_run
  · intro text
    rw [map_text_tokenize, join_fragments]

theorem fragments_split_mixed :
    String.join (fragments "~é(A\u2003TrueB &") = "~é(ATrueB&" ∧
      "TrueB" ∈ fragments "~é(A\u2003TrueB &" ∧ IsRun "TrueB" ∧ fragments "TrueB" = ["TrueB"] ∧
      CutBetween "~é(A" "\u2003TrueB &" ∧
      fragments "~é(A\u2003TrueB &" = ["~", "é", "(", "A"] ++ ["TrueB", "&"] ∧
      ¬CutBetween "~é(A\u2003Tru" "eB &" ∧
      fragments "~é(A\u2003TrueB &" ≠ ["~", "é", "(", "A", "Tru"] ++ ["eB", "&"] := by
  obtain ⟨joined, kinds, append, single, _⟩ := fragments_split
  have member : "TrueB" ∈ fragments "~é(A\u2003TrueB &" := by decide +kernel
  have isRun : IsRun "TrueB" := (kinds _ "TrueB" member).resolve_left (by decide)
  have cut : CutBetween "~é(A" "\u2003TrueB &" :=
    .inr (.inr (.inr ⟨'\u2003', rfl, .inl rfl⟩))
  have noCut : ¬CutBetween "~é(A\u2003Tru" "eB &" := by
    rw [cutBetween_iff]
    decide
  exact ⟨(joined _).trans rfl, member, isRun, single _ isRun, cut, (append _ _).mpr cut, noCut,
    mt (append "~é(A\u2003Tru" "eB &").mp noCut⟩

end BoolSimplify
