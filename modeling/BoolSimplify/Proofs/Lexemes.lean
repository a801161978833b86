/-
Lexemes at the front of a text.

Words, signs and white space are told apart by their first characters: no identifier
starts with a sign of the notation, a digit or white space, and none goes on with one.
The main statements say which lexeme is read where a word, a sign or a parenthesis stands,
whatever follows, and that every word that is read is one.
-/

import BoolSimplify.RuleText.Lexeme

namespace BoolSimplify

/-! ### Classes of characters -/

def rangesDisjoint (first second : List (Nat × Nat)) : Bool :=
  first.all fun left => second.all fun right =>
    Nat.blt left.2 right.1 || Nat.blt right.2 left.1

theorem inRanges_disjoint (first second : List (Nat × Nat))
    (disjoint : rangesDisjoint first second = true) {char : Char}
    (inFirst : inRanges first char = true) : inRanges second char = false := by
  obtain ⟨left, isLeft, within⟩ := List.any_eq_true.mp inFirst
  apply Bool.eq_false_iff.mpr
  intro inSecond
  obtain ⟨right, isRight, alsoWithin⟩ := List.any_eq_true.mp inSecond
  have apart := List.all_eq_true.mp (List.all_eq_true.mp disjoint left isLeft) right isRight
  simp only [Bool.and_eq_true, decide_eq_true_eq] at within alsoWithin
  simp only [Bool.or_eq_true, Nat.blt_eq] at apart
  omega

namespace RuleText

/-- White space, and the signs of ASCII that belong to no identifier. -/
def breakRanges : List (Nat × Nat) :=
  [(0x0021, 0x002F), (0x003A, 0x0040), (0x005B, 0x005E), (0x0060, 0x0060), (0x007B, 0x007E),
   (0x200E, 0x200F)] ++ blankRanges

def isBreak (char : Char) : Bool :=
  inRanges breakRanges char

theorem isBreak_of_space {char : Char} (space : isSpace char = true) : isBreak char = true := by
  simp only [isSpace, Bool.or_eq_true, beq_iff_eq] at space
  rcases space with (blank | rfl) | rfl
  · rw [isBreak, inRanges, breakRanges, List.any_append, Bool.or_eq_true]
    exact .inr blank
  · decide
  · decide

theorem starts_of_break {char : Char} (breaks : isBreak char = true) :
    startsIdentifier char = false := by
  have notStart := inRanges_disjoint breakRanges identifierStartRanges (by decide +kernel) breaks
  have notLater := inRanges_disjoint breakRanges laterStartRanges (by decide +kernel) breaks
  have notUnderscore : (char == '_') = false := by
    rw [beq_eq_false_iff_ne]
    rintro rfl
    exact absurd breaks (by decide)
  rw [startsIdentifier, notStart, notLater, notUnderscore]
  rfl

theorem continues_of_break {char : Char} (breaks : isBreak char = true) :
    continuesIdentifier char = false := by
  have notContinue :=
    inRanges_disjoint breakRanges identifierContinueRanges (by decide +kernel) breaks
  have notStart := inRanges_disjoint breakRanges laterStartRanges (by decide +kernel) breaks
  have notLater := inRanges_disjoint breakRanges laterContinueRanges (by decide +kernel) breaks
  rw [continuesIdentifier, notContinue, notStart, notLater]
  rfl

theorem not_digit_of_starts {char : Char} (starts : startsIdentifier char = true) :
    isDigit char = false := by
  apply Bool.eq_false_iff.mpr
  intro digit
  have range : inRanges [(0x30, 0x39)] char = true := by
    simp only [isDigit, Bool.and_eq_true, decide_eq_true_eq] at digit
    simp only [inRanges, List.any_cons, List.any_nil, Bool.or_false, Bool.and_eq_true,
      decide_eq_true_eq]
    exact digit
  have notStart := inRanges_disjoint _ identifierStartRanges (by decide +kernel) range
  have notLater := inRanges_disjoint _ laterStartRanges (by decide +kernel) range
  simp only [startsIdentifier, notStart, notLater, Bool.or_false, beq_iff_eq] at starts
  subst starts
  exact absurd digit (by decide)

theorem ne_of_starts {char mark : Char} (starts : startsIdentifier char = true)
    (breaks : isBreak mark = true) : char ≠ mark := by
  rintro rfl
  rw [starts_of_break breaks] at starts
  cases starts

/-! ### Literals -/

theorem hexValue?_letter {char : Char} {value : Nat} (notDigit : isDigit char = false)
    (isHex : hexValue? char = some value) : 10 ≤ value := by
  rw [hexValue?, notDigit, if_neg Bool.false_ne_true] at isHex
  split at isHex
  · rename_i lower
    simp only [Bool.and_eq_true, decide_eq_true_eq] at lower
    have above : 97 ≤ char.toNat := lower.1
    cases isHex
    omega
  · split at isHex
    · rename_i upper
      simp only [Bool.and_eq_true, decide_eq_true_eq] at upper
      have above : 65 ≤ char.toNat := upper.1
      cases isHex
      omega
    · cases isHex

theorem digits?_eq_none {first : Char} (rest : List Char) (notDigit : isDigit first = false) :
    digits? 10 false (first :: rest) = none := by
  rw [digits?]
  split
  · rfl
  · cases isHex : hexValue? first with
    | none => rfl
    | some value =>
        have large := hexValue?_letter notDigit isHex
        dsimp only
        rw [if_neg (by omega), if_neg (by omega)]
        rfl

theorem number?_eq_none {first : Char} (rest : List Char) (notDigit : isDigit first = false) :
    number? (first :: rest) = none := by
  have noFloat : float? (first :: rest) = none := by
    rw [float?, notDigit]
    rfl
  have noInteger : integer? (first :: rest) = none := by
    unfold integer?
    split
    · rename_i same
      cases same
      cases notDigit
    · rename_i same
      cases same
      cases notDigit
    · rename_i same
      cases same
      cases notDigit
    · exact digits?_eq_none rest notDigit
  rw [number?, noFloat, noInteger]
  rfl

/-- The quotes, and the sign that may stand between letters and a quote. -/
def quoteMarks : List Char := ['#', '"', '\'']

theorem isBreak_of_quoteMark : ∀ mark ∈ quoteMarks, isBreak mark = true :=
  List.all_eq_true.mp (by decide)

/-- Whether a text goes on with a quote or a sign before one behind what continues an
identifier. -/
def Announces (chars : List Char) : Prop :=
  ∃ mark ∈ quoteMarks, (chars.dropWhile continuesIdentifier).head? = some mark

theorem announces_cons {char : Char} {rest : List Char}
    (continues : continuesIdentifier char = true) : Announces (char :: rest) ↔ Announces rest := by
  rw [Announces, List.dropWhile_cons_of_pos continues]
  rfl

theorem announces_mark {mark : Char} (isMark : mark ∈ quoteMarks) (rest : List Char) :
    Announces (mark :: rest) := by
  refine ⟨mark, isMark, ?_⟩
  have ends := continues_of_break (isBreak_of_quoteMark mark isMark)
  rw [List.dropWhile_cons_of_neg (by rw [ends]; decide)]
  rfl

theorem raw?_eq_none (kind : QuoteKind) {chars : List Char} (plain : ¬Announces chars) :
    raw? kind chars = none := by
  cases chars with
  | nil => rfl
  | cons char rest =>
      have notHash : char ≠ '#' := by
        rintro rfl
        exact plain (announces_mark (by decide) rest)
      have noHashes : (char :: rest).takeWhile (· == '#') = [] :=
        List.takeWhile_cons_of_neg (by simpa using notHash)
      rw [raw?, noHashes]
      dsimp only [List.length_nil, List.drop_zero]
      split
      · rename_i same
        cases same
        exact absurd (announces_mark (by decide) _) plain
      · rfl

/-- No literal starts with an identifier unless a quote is announced behind it. -/
theorem literal?_eq_none {first : Char} {rest : List Char} (starts : startsIdentifier first = true)
    (plain : ¬Announces (first :: rest)) : literal? (first :: rest) = none := by
  have continuesR : continuesIdentifier 'r' = true := by decide +kernel
  have continuesB : continuesIdentifier 'b' = true := by decide +kernel
  have continuesC : continuesIdentifier 'c' = true := by decide +kernel
  have quoted (quote : Char) (isQuote : quote ∈ ['"', '\'']) (rest : List Char) :
      Announces (quote :: rest) :=
    announces_mark (List.mem_cons_of_mem _ isQuote) rest
  unfold literal?
  split
  · rename_i same
    cases same
    exact absurd (Eq.refl _) (ne_of_starts starts (by decide))
  · rename_i same
    cases same
    rw [announces_cons continuesR] at plain
    exact raw?_eq_none .text plain
  · rename_i same
    cases same
    rw [announces_cons continuesB] at plain
    exact absurd (quoted _ (by decide) _) plain
  · rename_i same
    cases same
    rw [announces_cons continuesB, announces_cons continuesR] at plain
    exact raw?_eq_none .bytes plain
  · rename_i same
    cases same
    rw [announces_cons continuesB] at plain
    exact absurd (quoted _ (by decide) _) plain
  · rename_i same
    cases same
    rw [announces_cons continuesC] at plain
    exact absurd (quoted _ (by decide) _) plain
  · rename_i same
    cases same
    rw [announces_cons continuesC, announces_cons continuesR] at plain
    exact raw?_eq_none .terminated plain
  · rename_i same
    cases same
    exact absurd (Eq.refl _) (ne_of_starts starts (by decide))
  · exact number?_eq_none rest (not_digit_of_starts starts)

/-! ### Words -/

inductive IsName : List Char → Prop where
  | intro (first : Char) (rest : List Char) (starts : startsIdentifier first = true)
      (continues : ∀ char ∈ rest, continuesIdentifier char = true) : IsName (first :: rest)

theorem IsName.of_all {first : Char} {rest : List Char} (starts : startsIdentifier first = true)
    (continues : rest.all continuesIdentifier = true) : IsName (first :: rest) :=
  .intro first rest starts (List.all_eq_true.mp continues)

/-- A word is a name, or one behind the mark that keeps it from being reserved. -/
inductive IsWord : String → Prop where
  | plain (name : List Char) (isName : IsName name) : IsWord (String.ofList name)
  | marked (name : List Char) (isName : IsName name)
      (markable : String.ofList name ∉ unmarkable) : IsWord (String.ofList ('r' :: '#' :: name))

theorem identifier?_eq_some {chars name rest : List Char}
    (found : identifier? chars = some (name, rest)) : IsName name := by
  cases chars with
  | nil => cases found
  | cons first others =>
      rw [identifier?] at found
      split at found
      · rename_i starts
        cases found
        exact .of_all starts List.all_takeWhile
      · cases found

theorem markedOrPlainWord?_isWord {chars rest : List Char} {text : String}
    (found : markedOrPlainWord? chars = some (text, rest)) : IsWord text := by
  unfold markedOrPlainWord? at found
  split at found
  · split at found
    · rename_i name _ read
      split at found
      · cases found
      · rename_i markable
        cases found
        refine .marked name (identifier?_eq_some read) ?_
        simpa using markable
    · cases found
  · split at found
    · rename_i name _ read
      cases found
      exact .plain name (identifier?_eq_some read)
    · cases found

/-- What may follow a word at once. -/
def EndsWord (rest : List Char) : Prop :=
  ∀ char ∈ rest.head?, continuesIdentifier char = false ∧ char ∉ quoteMarks

theorem EndsWord.takeWhile {rest : List Char} (ends : EndsWord rest) :
    rest.takeWhile continuesIdentifier = [] := by
  cases rest with
  | nil => rfl
  | cons char rest => exact List.takeWhile_cons_of_neg (by rw [(ends char rfl).1]; decide)

theorem EndsWord.dropWhile {rest : List Char} (ends : EndsWord rest) :
    rest.dropWhile continuesIdentifier = rest := by
  cases rest with
  | nil => rfl
  | cons char rest => exact List.dropWhile_cons_of_neg (by rw [(ends char rfl).1]; decide)

theorem identifier?_name {name rest : List Char} (isName : IsName name) (ends : EndsWord rest) :
    identifier? (name ++ rest) = some (name, rest) := by
  obtain ⟨first, others, starts, continues⟩ := isName
  rw [List.cons_append, identifier?, if_pos starts, List.takeWhile_append_of_pos continues,
    ends.takeWhile, List.append_nil, List.dropWhile_append_of_pos continues, ends.dropWhile]

theorem not_announces_name {name rest : List Char} (isName : IsName name) (ends : EndsWord rest) :
    ¬Announces (name ++ rest) := by
  obtain ⟨first, others, starts, continues⟩ := isName
  rintro ⟨mark, isMark, announced⟩
  by_cases goesOn : continuesIdentifier first = true
  · rw [List.cons_append, List.dropWhile_cons_of_pos goesOn,
      List.dropWhile_append_of_pos continues, ends.dropWhile] at announced
    exact (ends mark announced).2 isMark
  · rw [List.cons_append, List.dropWhile_cons_of_neg goesOn] at announced
    cases announced
    exact ne_of_starts starts (isBreak_of_quoteMark first isMark) rfl

theorem Announces.append {chars : List Char} (announces : Announces chars) (rest : List Char) :
    Announces (chars ++ rest) := by
  obtain ⟨mark, isMark, first⟩ := announces
  refine ⟨mark, isMark, ?_⟩
  rw [List.dropWhile_append]
  split
  · rename_i empty
    rw [List.isEmpty_iff.mp empty] at first
    cases first
  · rw [List.head?_append, first]
    rfl

theorem quoteBeginnings_announce : ∀ beginning ∈ quoteBeginnings, Announces beginning.toList := by
  have marked : quoteBeginnings.all (fun beginning =>
      (beginning.toList.dropWhile continuesIdentifier).head?.any quoteMarks.contains) = true := by
    decide +kernel
  intro beginning isBeginning
  obtain ⟨mark, first, isMark⟩ :=
    (Option.any_eq_true _ _).mp (List.all_eq_true.mp marked beginning isBeginning)
  exact ⟨mark, List.contains_iff_mem.mp isMark, first⟩

/-- Words that are not marked are found where no quote is announced. -/
theorem word?_name {name rest : List Char} (isName : IsName name) (ends : EndsWord rest) :
    word? (name ++ rest) = some (String.ofList name, rest) := by
  have plain := not_announces_name isName ends
  have noQuote : quoteBeginnings.any (·.toList.isPrefixOf (name ++ rest)) = false := by
    apply Bool.eq_false_iff.mpr
    intro announced
    obtain ⟨beginning, isBeginning, isFront⟩ := List.any_eq_true.mp announced
    obtain ⟨others, split⟩ := List.isPrefixOf_iff_prefix.mp isFront
    apply plain
    rw [← split]
    exact (quoteBeginnings_announce beginning isBeginning).append others
  rw [word?, noQuote, if_neg Bool.false_ne_true]
  unfold markedOrPlainWord?
  split
  · rename_i others same
    apply absurd _ plain
    rw [same, announces_cons (by decide +kernel)]
    exact announces_mark (by decide) others
  · rw [identifier?_name isName ends]

theorem literal?_name {name rest : List Char} (isName : IsName name) (ends : EndsWord rest) :
    literal? (name ++ rest) = none := by
  have plain := not_announces_name isName ends
  obtain ⟨first, others, starts, _⟩ := isName
  exact literal?_eq_none starts plain

theorem word?_marked {name rest : List Char} (isName : IsName name) (ends : EndsWord rest)
    (markable : String.ofList name ∉ unmarkable) :
    word? ('r' :: '#' :: (name ++ rest)) = some (String.ofList ('r' :: '#' :: name), rest) := by
  have noQuote :
      quoteBeginnings.any (·.toList.isPrefixOf ('r' :: '#' :: (name ++ rest))) = false := by
    obtain ⟨first, others, starts, _⟩ := isName
    have notHash : ('#' == first) = false :=
      beq_eq_false_iff_ne.mpr (ne_of_starts starts (by decide)).symm
    have notQuote : ('"' == first) = false :=
      beq_eq_false_iff_ne.mpr (ne_of_starts starts (by decide)).symm
    simp [quoteBeginnings, List.isPrefixOf, notHash, notQuote]
  rw [word?, noQuote, if_neg Bool.false_ne_true, markedOrPlainWord?, identifier?_name isName ends]
  simpa using markable

theorem literal?_marked {name : List Char} (rest : List Char) (isName : IsName name) :
    literal? ('r' :: '#' :: (name ++ rest)) = none := by
  obtain ⟨first, others, starts, _⟩ := isName
  have notHash : first ≠ '#' := ne_of_starts starts (by decide)
  have oneHash : ('#' :: first :: (others ++ rest)).takeWhile (· == '#') = ['#'] := by
    rw [List.takeWhile_cons_of_pos (by rfl), List.takeWhile_cons_of_neg (by simpa using notHash)]
  change raw? .text ('#' :: first :: (others ++ rest)) = none
  rw [raw?, oneHash]
  dsimp only [List.length_singleton, List.drop_succ_cons, List.drop_zero]
  split
  · rename_i same
    cases same
    exact absurd (Eq.refl _) (ne_of_starts starts (by decide))
  · rfl

theorem IsWord.starts {text : String} (isWord : IsWord text) :
    ∃ first others, text.toList = first :: others ∧ startsIdentifier first = true := by
  cases isWord with
  | plain name isName =>
      obtain ⟨first, others, starts, _⟩ := isName
      exact ⟨first, others, String.toList_ofList, starts⟩
  | marked name isName markable =>
      exact ⟨'r', '#' :: name, String.toList_ofList, by decide +kernel⟩

theorem IsWord.word?_eq_some {text : String} (isWord : IsWord text) {rest : List Char}
    (ends : EndsWord rest) : word? (text.toList ++ rest) = some (text, rest) := by
  cases isWord with
  | plain name isName =>
      rw [String.toList_ofList]
      exact word?_name isName ends
  | marked name isName markable =>
      rw [String.toList_ofList]
      exact word?_marked isName ends markable

theorem IsWord.literal?_eq_none {text : String} (isWord : IsWord text) {rest : List Char}
    (ends : EndsWord rest) : literal? (text.toList ++ rest) = none := by
  cases isWord with
  | plain name isName =>
      rw [String.toList_ofList]
      exact literal?_name isName ends
  | marked name isName markable =>
      rw [String.toList_ofList]
      exact literal?_marked rest isName

/-! ### Lexemes -/

theorem lexeme?_space {char : Char} (rest : List Char) (space : isSpace char = true) :
    lexeme? char rest = some (none, rest) := by
  rw [lexeme?, if_pos space]

theorem unreadable_eq : unreadable = '(' :: '/' :: "*ERROR*/)".toList := by
  decide +kernel

theorem comment?_eq_none {first : Char} (rest : List Char) (notSlash : first ≠ '/') :
    comment? (first :: rest) = none := by
  rw [comment?]
  all_goals
    rintro _ ⟨⟩
    exact notSlash rfl

theorem documentation?_eq_none {first : Char} (rest : List Char) (notSlash : first ≠ '/') :
    documentation? (first :: rest) = none := by
  rw [documentation?]
  all_goals
    rintro _ ⟨⟩
    exact notSlash rfl

theorem bracket?_starts {first : Char} (starts : startsIdentifier first = true) :
    bracket? first = none := by
  rw [bracket?]
  all_goals exact ne_of_starts starts (by decide)

theorem lexeme?_starts {first : Char} (rest : List Char) (starts : startsIdentifier first = true) :
    lexeme? first rest =
      (leaf? (first :: rest)).map fun (lexeme, rest) => (some lexeme, rest) := by
  have notSpace : isSpace first = false := by
    apply Bool.eq_false_iff.mpr
    intro space
    exact ne_of_starts starts (isBreak_of_space space) rfl
  have notSlash : first ≠ '/' := ne_of_starts starts (by decide)
  have readable : unreadable.isPrefixOf (first :: rest) = false := by
    have notOpening : ('(' == first) = false :=
      beq_eq_false_iff_ne.mpr (ne_of_starts starts (by decide)).symm
    rw [unreadable_eq, List.isPrefixOf, notOpening, Bool.false_and]
  rw [lexeme?, notSpace, if_neg Bool.false_ne_true, comment?_eq_none rest notSlash,
    documentation?_eq_none rest notSlash]
  dsimp only
  rw [readable, if_neg Bool.false_ne_true, bracket?_starts starts]

theorem sign?_starts {first : Char} (rest : List Char) (starts : startsIdentifier first = true) :
    sign? (first :: rest) = none := by
  have notSign : signs.contains first = false := by
    apply Bool.eq_false_iff.mpr
    intro isSign
    have breaks : ∀ sign ∈ signs, isBreak sign = true := List.all_eq_true.mp (by decide +kernel)
    exact ne_of_starts starts (breaks first (List.contains_iff_mem.mp isSign)) rfl
  have noSign : startsSign (first :: rest) = false := by
    rw [startsSign, List.head?_cons, Option.any_some, notSign, Bool.and_false]
  rw [sign?, noSign]
  rfl

theorem lexeme?_word {text : String} (isWord : IsWord text) {first : Char} {others rest : List Char}
    (written : text.toList = first :: others) (ends : EndsWord rest) :
    lexeme? first (others ++ rest) = some (some (.word text), rest) := by
  obtain ⟨_, _, sameText, starts⟩ := isWord.starts
  rw [written] at sameText
  cases sameText
  have found := isWord.word?_eq_some ends
  have noLiteral := isWord.literal?_eq_none ends
  rw [written, List.cons_append] at found noLiteral
  rw [lexeme?_starts _ starts, leaf?, noLiteral, sign?_starts _ starts, found]
  rfl

theorem lexeme?_closing (rest : List Char) :
    lexeme? ')' rest = some (some (.closing .round), rest) := by
  rfl

theorem lexeme?_opening {rest : List Char} (noComment : rest.head? ≠ some '/') :
    lexeme? '(' rest = some (some (.opening .round), rest) := by
  cases rest with
  | nil => rfl
  | cons next rest =>
      have notSlash : ('/' == next) = false := by
        rw [beq_eq_false_iff_ne]
        rintro rfl
        exact noComment rfl
      have readable : unreadable.isPrefixOf ('(' :: next :: rest) = false := by
        rw [unreadable_eq, List.isPrefixOf, List.isPrefixOf, notSlash, Bool.false_and,
          Bool.and_false]
      change (if unreadable.isPrefixOf ('(' :: next :: rest) then _ else _) = _
      rw [readable]
      rfl

def ruleSigns : List Char := [':', '&', '|', '~', '=', '>']

theorem lexeme?_sign {char : Char} (isSign : char ∈ ruleSigns) (rest : List Char) :
    lexeme? char rest = some (some (.sign char (startsSign rest)), rest) := by
  simp only [ruleSigns, List.mem_cons, List.not_mem_nil, or_false] at isSign
  rcases isSign with rfl | rfl | rfl | rfl | rfl | rfl
  all_goals rfl

/-! ### Lists of lexemes -/

theorem lexemesAfter_skip (front rest : List Char) :
    lexemesAfter front.length (front ++ rest) = lexemesAfter 0 rest := by
  induction front with
  | nil => rfl
  | cons char front ih => exact ih

theorem lexemesAfter_cons {char : Char} {front rest : List Char} {lexeme : Option Lexeme}
    (found : lexeme? char (front ++ rest) = some (lexeme, rest)) :
    lexemesAfter 0 (char :: (front ++ rest)) =
      (lexemesAfter 0 rest).map (lexeme.toList ++ ·) := by
  have skipped : (front ++ rest).length - rest.length = front.length := by
    rw [List.length_append]
    omega
  rw [lexemesAfter, found]
  dsimp only
  rw [skipped, lexemesAfter_skip]

theorem lexemesAfter_single {char : Char} {rest : List Char} {lexeme : Option Lexeme}
    (found : lexeme? char rest = some (lexeme, rest)) :
    lexemesAfter 0 (char :: rest) = (lexemesAfter 0 rest).map (lexeme.toList ++ ·) :=
  @lexemesAfter_cons char [] rest lexeme found

end RuleText

end BoolSimplify
