/-
The notation of rules.

A declaration is written as its parts one behind the other, with any white space between
them and some between two words.  The main statement says that however a declaration is
written, it is read back, and that what is read from any text at all is a declaration that
can be written.
-/

import BoolSimplify.Proofs.Declaration
import BoolSimplify.Proofs.Lexemes

namespace BoolSimplify.RuleText

/-! ### Pieces -/

/-- A part of the text of a declaration. -/
inductive Piece where
  | family (name : String)
  | colon
  | element (symbol : Element)
  | arrow
  deriving DecidableEq, Repr

namespace Piece

def text : Piece → String
  | family name => name
  | colon => ":"
  | element symbol => Element.text symbol
  | arrow => "=>"

def isWord : Piece → Bool
  | family _ => true
  | element symbol => symbol.isAtomic
  | colon | arrow => false

def lexemes (joint : Bool) : Piece → List Lexeme
  | family name => [.word name]
  | colon => [.sign ':' joint]
  | element .opening => [.opening .round]
  | element .closing => [.closing .round]
  | element .conj => [.sign '&' joint]
  | element .disj => [.sign '|' joint]
  | element .neg => [.sign '~' joint]
  | element (.truth value) => [.word (Element.text (.truth value))]
  | element (.atom placeholder) => [.word (Element.text (.atom placeholder))]
  | arrow => [.sign '=' true, .sign '>' joint]

end Piece

def Declaration.pieces (declaration : Declaration) : List Piece :=
  [.family declaration.family, .colon] ++ declaration.pattern.map .element ++
    .arrow :: declaration.replacement.map .element

/-- The characters that write pieces one behind the other, perhaps after a word that stands
right before them.  White space may stand anywhere between them, and must between words. -/
inductive Writes : (afterWord : Bool) → List Piece → List Char → Prop where
  | done (afterWord : Bool) : Writes afterWord [] []
  | space {afterWord : Bool} {pieces : List Piece} {chars : List Char} (char : Char)
      (isSpace : isSpace char = true) (later : Writes false pieces chars) :
      Writes afterWord pieces (char :: chars)
  | piece {afterWord : Bool} {pieces : List Piece} {chars : List Char} (piece : Piece)
      (apart : (afterWord && piece.isWord) = false) (later : Writes piece.isWord pieces chars) :
      Writes afterWord (piece :: pieces) (piece.text.toList ++ chars)

/-! ### Reading pieces as lexemes -/

theorem IsWord.of_name (text : String) (isName : IsName text.toList) : IsWord text := by
  have word := IsWord.plain text.toList isName
  rwa [String.ofList_toList] at word

theorem isWord_text (element : Element) (atomic : element.isAtomic = true) :
    IsWord (Element.text element) := by
  apply IsWord.of_name
  cases element with
  | opening | closing | conj | disj | neg => cases atomic
  | truth value =>
      cases value with
      | true => exact IsName.of_all (by decide +kernel) (by decide +kernel)
      | false => exact IsName.of_all (by decide +kernel) (by decide +kernel)
  | atom placeholder =>
      cases placeholder with
      | slot slot =>
          cases slot with
          | x => exact IsName.of_all (by decide +kernel) (by decide +kernel)
          | y => exact IsName.of_all (by decide +kernel) (by decide +kernel)
          | z => exact IsName.of_all (by decide +kernel) (by decide +kernel)
      | run => exact IsName.of_all (by decide +kernel) (by decide +kernel)

/-- A piece is readable unless it is a family whose name is no word. -/
def Piece.Readable : Piece → Prop
  | family name => IsWord name
  | _ => True

theorem Piece.Readable.isWord {piece : Piece} (readable : piece.Readable)
    (word : piece.isWord = true) :
    IsWord piece.text ∧ ∀ joint, piece.lexemes joint = [.word piece.text] := by
  cases piece with
  | family name => exact ⟨readable, fun _ => rfl⟩
  | colon | arrow => cases word
  | element symbol =>
      refine ⟨isWord_text symbol word, ?_⟩
      cases symbol with
      | opening | closing | conj | disj | neg => cases word
      | truth value | atom placeholder => exact fun _ => rfl

def pieceSigns : List Char := ['(', ')', '&', '|', '~', ':', '=']

theorem Piece.head_of_not_word {piece : Piece} (notWord : piece.isWord = false) :
    ∃ sign ∈ pieceSigns, piece.text.toList.head? = some sign := by
  cases piece with
  | family name => cases notWord
  | colon | arrow =>
      refine ⟨_, ?_, rfl⟩
      decide
  | element symbol =>
      cases symbol with
      | opening | closing | conj | disj | neg =>
          refine ⟨_, ?_, rfl⟩
          decide
      | truth value | atom placeholder => cases notWord

namespace Writes

variable {afterWord : Bool} {pieces : List Piece} {chars : List Char}

theorem weaken (writes : Writes true pieces chars) : Writes afterWord pieces chars := by
  cases writes with
  | done => exact .done afterWord
  | space char isSpace later => exact .space char isSpace later
  | piece piece apart later =>
      refine .piece piece ?_ later
      rw [Bool.true_and] at apart
      rw [apart, Bool.and_false]

/-- The characters that can stand first: white space, signs and what starts a word. -/
theorem head (writes : Writes afterWord pieces chars)
    (readable : ∀ piece ∈ pieces, piece.Readable) :
    ∀ first ∈ chars.head?, isSpace first = true ∨ first ∈ pieceSigns ∨
      (afterWord = false ∧ startsIdentifier first = true) := by
  cases writes with
  | done => exact fun first isFirst => absurd isFirst (by simp)
  | space char isSpace later =>
      rintro _ ⟨⟩
      exact .inl isSpace
  | piece piece apart later =>
      intro first isFirst
      right
      cases word : piece.isWord with
      | true =>
          obtain ⟨isWord, _⟩ := (readable piece List.mem_cons_self).isWord word
          obtain ⟨start, others, written, starts⟩ := isWord.starts
          rw [written] at isFirst
          cases isFirst
          rw [word, Bool.and_true] at apart
          exact .inr ⟨apart, starts⟩
      | false =>
          obtain ⟨sign, isSign, front⟩ := piece.head_of_not_word word
          rw [Option.mem_def, List.head?_append, front] at isFirst
          cases isFirst
          exact .inl isSign

theorem endsWord (writes : Writes true pieces chars) (readable : ∀ piece ∈ pieces, piece.Readable) :
    EndsWord chars := by
  intro first isFirst
  rcases writes.head readable first isFirst with space | isSign | ⟨⟨⟩, _⟩
  · refine ⟨continues_of_break (isBreak_of_space space), ?_⟩
    intro announces
    have noSpace : ∀ mark ∈ quoteMarks, (!isSpace mark) = true := List.all_eq_true.mp (by decide)
    have notSpace := noSpace first announces
    rw [space] at notSpace
    cases notSpace
  · have breaks : ∀ sign ∈ pieceSigns, isBreak sign = true := List.all_eq_true.mp (by decide)
    have quiet : ∀ sign ∈ pieceSigns, decide (sign ∉ quoteMarks) = true :=
      List.all_eq_true.mp (by decide)
    exact ⟨continues_of_break (breaks first isSign), of_decide_eq_true (quiet first isSign)⟩

theorem head_ne (writes : Writes afterWord pieces chars)
    (readable : ∀ piece ∈ pieces, piece.Readable)
    {mark : Char} (notSpace : isSpace mark = false) (notSign : mark ∉ pieceSigns)
    (notStart : startsIdentifier mark = false) : chars.head? ≠ some mark := by
  intro isFirst
  rcases writes.head readable mark isFirst with space | isSign | ⟨_, starts⟩
  · rw [notSpace] at space
    cases space
  · exact notSign isSign
  · rw [notStart] at starts
    cases starts

end Writes

theorem lexemesAfter_piece {piece : Piece} (readable : piece.Readable) {rest : List Char}
    (ends : piece.isWord = true → EndsWord rest) (noComment : rest.head? ≠ some '/') :
    lexemesAfter 0 (piece.text.toList ++ rest) =
      (lexemesAfter 0 rest).map (piece.lexemes (startsSign rest) ++ ·) := by
  cases word : piece.isWord with
  | true =>
      obtain ⟨isWord, sameLexemes⟩ := readable.isWord word
      obtain ⟨first, others, written, _⟩ := isWord.starts
      rw [sameLexemes, written, List.cons_append,
        lexemesAfter_cons (lexeme?_word isWord written (ends word))]
      rfl
  | false =>
      cases piece with
      | family name => cases word
      | colon => exact lexemesAfter_single (lexeme?_sign (by decide) rest)
      | arrow =>
          have equals : lexeme? '=' ('>' :: rest) = some (some (.sign '=' true), '>' :: rest) :=
            lexeme?_sign (by decide) ('>' :: rest)
          change lexemesAfter 0 ('=' :: '>' :: rest) = _
          rw [lexemesAfter_single equals, lexemesAfter_single (lexeme?_sign (by decide) rest),
            Option.map_map]
          rfl
      | element symbol =>
          cases symbol with
          | opening => exact lexemesAfter_single (lexeme?_opening noComment)
          | closing => exact lexemesAfter_single (lexeme?_closing rest)
          | conj | disj | neg => exact lexemesAfter_single (lexeme?_sign (by decide) rest)
          | truth value | atom placeholder => cases word

/-- Lexemes that are read of pieces, each joint with the next one or not. -/
inductive Denotes : List Piece → List Lexeme → Prop where
  | nil : Denotes [] []
  | cons {pieces : List Piece} {lexemes : List Lexeme} (piece : Piece) (joint : Bool)
      (later : Denotes pieces lexemes) : Denotes (piece :: pieces) (piece.lexemes joint ++ lexemes)

theorem Denotes.uncons {piece : Piece} {pieces : List Piece} {lexemes : List Lexeme}
    (denotes : Denotes (piece :: pieces) lexemes) :
    ∃ joint rest, lexemes = piece.lexemes joint ++ rest ∧ Denotes pieces rest := by
  cases denotes with
  | cons _ joint later => exact ⟨joint, _, rfl, later⟩

theorem Writes.denotes {afterWord : Bool} {pieces : List Piece} {chars : List Char}
    (writes : Writes afterWord pieces chars) (readable : ∀ piece ∈ pieces, piece.Readable) :
    ∃ lexemes, lexemesAfter 0 chars = some lexemes ∧ Denotes pieces lexemes := by
  induction writes with
  | done afterWord => exact ⟨[], rfl, .nil⟩
  | space char isSpace later ih =>
      obtain ⟨lexemes, read, denotes⟩ := ih readable
      refine ⟨lexemes, ?_, denotes⟩
      rw [lexemesAfter_single (lexeme?_space _ isSpace), read]
      rfl
  | @piece afterWord pieces rest piece apart later ih =>
      obtain ⟨here, laterReadable⟩ := List.forall_mem_cons.mp readable
      obtain ⟨lexemes, read, denotes⟩ := ih laterReadable
      refine ⟨piece.lexemes (startsSign rest) ++ lexemes, ?_, .cons piece _ denotes⟩
      have ends (word : piece.isWord = true) : EndsWord rest := by
        rw [word] at later
        exact later.endsWord laterReadable
      have noComment : rest.head? ≠ some '/' :=
        later.head_ne laterReadable (by decide) (by decide) (starts_of_break (by decide))
      rw [lexemesAfter_piece here ends noComment, read]
      rfl

/-! ### Reading lexemes as declarations -/

theorem elementOfWord_text (symbol : Element) (atomic : symbol.isAtomic = true) :
    elementOfWord (Element.text symbol) = .ok symbol := by
  cases symbol with
  | opening | closing | conj | disj | neg => cases atomic
  | truth value =>
      cases value with
      | true => rfl
      | false => rfl
  | atom placeholder =>
      cases placeholder with
      | slot slot =>
          cases slot with
          | x => rfl
          | y => rfl
          | z => rfl
      | run => rfl

theorem readSide_word (depth : Nat) (symbol : Element) (lexemes : List Lexeme)
    (atomic : symbol.isAtomic = true) :
    readSide depth (.word (Element.text symbol) :: lexemes) =
      consElement symbol (readSide depth lexemes) := by
  rw [readSide, elementOfWord_text symbol atomic]

theorem readSide_plain (depth : Nat) (symbol : Element) (joint : Bool) (lexemes : List Lexeme)
    (plain : symbol.isParenthesis = false) :
    readSide depth ((Piece.element symbol).lexemes joint ++ lexemes) =
      consElement symbol (readSide depth lexemes) := by
  cases symbol with
  | opening | closing => cases plain
  | conj =>
      change readSide depth (.sign '&' joint :: lexemes) = _
      rw [readSide]
  | disj =>
      change readSide depth (.sign '|' joint :: lexemes) = _
      rw [readSide]
  | neg =>
      change readSide depth (.sign '~' joint :: lexemes) = _
      rw [readSide]
  | truth value => exact readSide_word depth _ lexemes rfl
  | atom placeholder => exact readSide_word depth _ lexemes rfl

theorem bracketsMatch_plain (opened : List Bracket) (symbol : Element) (joint : Bool)
    (lexemes : List Lexeme) (plain : symbol.isParenthesis = false) :
    bracketsMatch opened ((Piece.element symbol).lexemes joint ++ lexemes) =
      bracketsMatch opened lexemes := by
  cases symbol with
  | opening | closing => cases plain
  | conj | disj | neg | truth value | atom placeholder => cases opened <;> rfl

theorem readSide_denotes {depth : Nat} {elements : List Element}
    (closes : unmatched elements = ⟨depth, 0⟩) {after : List Piece}
    (ends : after = [] ∨ ∃ rest, after = .arrow :: rest) {lexemes : List Lexeme}
    (denotes : Denotes (elements.map .element ++ after) lexemes) :
    ∃ left, Denotes after left ∧ readSide depth lexemes = .ok (elements, left) ∧
      bracketsMatch (List.replicate depth .round) lexemes = bracketsMatch [] left := by
  induction elements generalizing depth lexemes with
  | nil =>
      cases closes
      refine ⟨lexemes, denotes, ?_, rfl⟩
      rcases ends with rfl | ⟨rest, rfl⟩
      · cases denotes
        rfl
      · cases denotes
        rfl
  | cons symbol rest ih =>
      obtain ⟨joint, lexemes, rfl, later⟩ := denotes.uncons
      rcases symbol.opening_or_closing_or_plain with rfl | rfl | plain
      · obtain ⟨left, leftDenotes, read, matched⟩ :=
          ih ((closes_opening depth rest).mp closes) later
        refine ⟨left, leftDenotes, ?_, matched⟩
        change readSide depth (.opening .round :: lexemes) = _
        rw [readSide, read]
        rfl
      · cases depth with
        | zero => exact absurd closes (not_balanced_closing rest)
        | succ depth =>
            obtain ⟨left, leftDenotes, read, matched⟩ :=
              ih ((closes_closing depth rest).mp closes) later
            refine ⟨left, leftDenotes, ?_, matched⟩
            change readSide (depth + 1) (.closing .round :: lexemes) = _
            rw [readSide, read]
            rfl
      · rw [unmatched_plain plain] at closes
        obtain ⟨left, leftDenotes, read, matched⟩ := ih closes later
        refine ⟨left, leftDenotes, ?_, ?_⟩
        · rw [readSide_plain depth symbol joint lexemes plain, read]
          rfl
        · rw [bracketsMatch_plain _ symbol joint lexemes plain, matched]

theorem unbound?_eq_none_iff (pattern replacement : List Element) :
    unbound? pattern replacement = none ↔
      ∀ placeholder, .atom placeholder ∈ replacement → .atom placeholder ∈ pattern := by
  have mem_placeholders (elements : List Element) (placeholder : Placeholder) :
      placeholder ∈ elements.filterMap placeholder? ↔ .atom placeholder ∈ elements := by
    rw [List.mem_filterMap]
    constructor
    · rintro ⟨symbol, member, isPlaceholder⟩
      cases symbol with
      | atom other =>
          cases isPlaceholder
          exact member
      | opening | closing | conj | disj | neg | truth value => cases isPlaceholder
    · exact fun member => ⟨.atom placeholder, member, rfl⟩
  simp only [unbound?, List.find?_eq_none, mem_placeholders, Bool.not_eq_true', Bool.not_eq_false,
    List.contains_iff_mem]

/-- A declaration that can be written and read. -/
structure Declaration.Valid (declaration : Declaration) : Prop where
  isWord : IsWord declaration.family
  notReserved : declaration.family ∉ reservedWords
  nonempty : declaration.pattern ≠ []
  patternBalanced : Balanced declaration.pattern
  replacementBalanced : Balanced declaration.replacement
  bound : ∀ placeholder, .atom placeholder ∈ declaration.replacement →
    .atom placeholder ∈ declaration.pattern

theorem Declaration.Valid.readable {declaration : Declaration} (valid : declaration.Valid) :
    ∀ piece ∈ declaration.pieces, piece.Readable := by
  intro piece member
  cases piece with
  | colon | element symbol | arrow => exact trivial
  | family name =>
      have sameName : name = declaration.family := by simpa [pieces] using member
      rw [sameName]
      exact valid.isWord

/-- The parts of a declaration, read one behind the other, make it accepted. -/
theorem readDeclaration_of_parts {lexemes afterColon afterPattern afterArrow : List Lexeme}
    {declaration : Declaration} (nonempty : declaration.pattern ≠ [])
    (familyRead : readFamily lexemes = .ok (declaration.family, afterColon))
    (patternRead : readSide 0 afterColon = .ok (declaration.pattern, afterPattern))
    (arrowRead : readArrow afterPattern = .ok afterArrow)
    (replacementRead : readSide 0 afterArrow = .ok (declaration.replacement, []))
    (allBound : unbound? declaration.pattern declaration.replacement = none) :
    readDeclaration lexemes = .ok declaration := by
  have notEmpty : declaration.pattern.isEmpty = false := by
    rwa [List.isEmpty_eq_false_iff]
  simp only [readDeclaration, familyRead, patternRead, notEmpty, arrowRead, replacementRead,
    allBound, bind, Except.bind, pure, Except.pure, List.isEmpty_nil, Bool.not_true,
    Bool.false_eq_true, if_false]

theorem readDeclaration_denotes {declaration : Declaration} (valid : declaration.Valid)
    {lexemes : List Lexeme} (denotes : Denotes declaration.pieces lexemes) :
    readDeclaration lexemes = .ok declaration ∧ bracketsMatch [] lexemes = true := by
  rw [Declaration.pieces, List.append_assoc] at denotes
  obtain ⟨_, _, rfl, colonDenotes⟩ := denotes.uncons
  obtain ⟨joint, afterColon, rfl, patternDenotes⟩ := colonDenotes.uncons
  obtain ⟨afterPattern, arrowDenotes, patternRead, patternMatched⟩ :=
    readSide_denotes valid.patternBalanced (.inr ⟨_, rfl⟩) patternDenotes
  obtain ⟨_, afterArrow, rfl, replacementDenotes⟩ := arrowDenotes.uncons
  rw [← List.append_nil (declaration.replacement.map Piece.element)] at replacementDenotes
  obtain ⟨nothing, nothingDenotes, replacementRead, replacementMatched⟩ :=
    readSide_denotes valid.replacementBalanced (.inl rfl) replacementDenotes
  cases nothingDenotes
  constructor
  · have familyRead : readFamily (.word declaration.family :: .sign ':' joint :: afterColon) =
        .ok (declaration.family, afterColon) := by
      rw [readFamily, if_neg]
      rw [List.contains_iff_mem]
      exact valid.notReserved
    have allBound := (unbound?_eq_none_iff _ _).mpr valid.bound
    exact readDeclaration_of_parts valid.nonempty familyRead patternRead rfl replacementRead
      allBound
  · exact patternMatched.trans replacementMatched

/-! ### Texts -/

theorem Declaration.Valid.parse_writes {declaration : Declaration} (valid : declaration.Valid)
    {text : String} (writes : Writes false declaration.pieces text.toList) :
    Declaration.parse text = .ok declaration := by
  obtain ⟨lexemes, read, denotes⟩ := writes.denotes valid.readable
  obtain ⟨accepted, matched⟩ := readDeclaration_denotes valid denotes
  have noMark : text.toList.head? ≠ some byteOrderMark :=
    writes.head_ne valid.readable (by decide) (by decide) (by decide +kernel)
  have found : lexemes? text = some lexemes := by
    rw [lexemes?]
    split
    · rename_i empty
      rw [empty] at read
      rw [read, Option.filter_some_pos matched]
    · rename_i first rest written
      rw [written] at noMark read
      have notMark : first ≠ byteOrderMark := fun same => noMark (congrArg some same)
      rw [if_neg notMark, read, Option.filter_some_pos matched]
  rw [parse, found]
  exact accepted

theorem sign?_not_word {chars rest : List Char} {text : String} :
    sign? chars ≠ some (.word text, rest) := by
  intro found
  unfold sign? at found
  split at found
  · cases found
  · split at found
    · cases found
    · split at found
      · split at found
        · cases found
        · cases found
      · cases found

theorem leaf?_isWord {chars rest : List Char} {text : String}
    (found : leaf? chars = some (.word text, rest)) : IsWord text := by
  unfold leaf? at found
  split at found
  · cases found
  · split at found
    · rename_i read
      cases found
      exact absurd read sign?_not_word
    · obtain ⟨⟨word, after⟩, isWord, same⟩ := Option.map_eq_some_iff.mp found
      cases same
      rw [word?] at isWord
      split at isWord
      · cases isWord
      · exact markedOrPlainWord?_isWord isWord

theorem bracket?_not_word (char : Char) (text : String) : bracket? char ≠ some (.word text) := by
  intro found
  unfold bracket? at found
  split at found
  all_goals cases found

theorem lexeme?_isWord {char : Char} {chars rest : List Char} {text : String}
    (found : lexeme? char chars = some (some (.word text), rest)) : IsWord text := by
  unfold lexeme? at found
  split at found
  · cases found
  · split at found
    · cases found
    · cases found
    · split at found
      · cases found
      · split at found
        · rename_i bracket isBracket
          cases found
          exact absurd isBracket (bracket?_not_word char text)
        · obtain ⟨⟨lexeme, after⟩, isLeaf, same⟩ := Option.map_eq_some_iff.mp found
          cases same
          exact leaf?_isWord isLeaf

theorem isWord_of_mem_lexemes {skip : Nat} {chars : List Char} {lexemes : List Lexeme}
    (read : lexemesAfter skip chars = some lexemes) :
    ∀ text, .word text ∈ lexemes → IsWord text := by
  induction chars generalizing skip lexemes with
  | nil =>
      rw [lexemesAfter] at read
      cases read
      exact fun text member => absurd member List.not_mem_nil
  | cons char rest ih =>
      cases skip with
      | succ skip => exact ih read
      | zero =>
          rw [lexemesAfter] at read
          split at read
          · cases read
          · rename_i lexeme after found
            obtain ⟨later, laterRead, rfl⟩ := Option.map_eq_some_iff.mp read
            intro text member
            rcases List.mem_append.mp member with here | inLater
            · rw [Option.mem_toList] at here
              rw [here] at found
              exact lexeme?_isWord found
            · exact ih laterRead text inLater

theorem Declaration.valid_of_parse {text : String} {declaration : Declaration}
    (accepted : Declaration.parse text = .ok declaration) : declaration.Valid := by
  obtain ⟨patternBalanced, replacementBalanced⟩ := balanced_of_parse text declaration accepted
  unfold Declaration.parse at accepted
  split at accepted
  · rename_i lexemes lexemesRead
    obtain ⟨afterColon, afterPattern, afterArrow, familyRead, _, nonempty, _, _, allBound⟩ :=
      readDeclaration_eq_ok lexemes declaration accepted
    have words := isWord_of_mem_lexemes (Option.filter_eq_some_iff.mp lexemesRead).1
    unfold readFamily at familyRead
    split at familyRead
    · cases familyRead
    · split at familyRead
      · cases familyRead
      · rename_i notReserved
        split at familyRead
        · cases familyRead
          refine ⟨words _ List.mem_cons_self, ?_, nonempty, patternBalanced, replacementBalanced,
            (unbound?_eq_none_iff _ _).mp allBound⟩
          rwa [List.contains_iff_mem] at notReserved
        · cases familyRead
    · cases familyRead
  · cases accepted

theorem Writes.side (elements : List Element) {after : List Piece} {chars : List Char}
    (later : Writes true after chars) :
    Writes false (elements.map .element ++ after)
      ((" ".intercalate (elements.map Element.text)).toList ++ chars) := by
  induction elements with
  | nil => exact later.weaken
  | cons symbol rest ih =>
      cases rest with
      | nil =>
          rw [List.map_singleton, List.map_singleton, String.intercalate_singleton]
          apply Writes.piece (.element symbol) rfl
          cases Piece.isWord (.element symbol) with
          | true => exact later
          | false => exact later.weaken
      | cons next others =>
          rw [List.map_cons, List.map_cons, List.map_cons, List.map_cons,
            String.intercalate_cons_cons, String.toList_append, String.toList_append,
            List.append_assoc, List.append_assoc]
          exact .piece (.element symbol) rfl (.space ' ' rfl ih)

theorem Declaration.writes_text (declaration : Declaration) :
    Writes false declaration.pieces declaration.text.toList := by
  have replacement := Writes.side declaration.replacement (.done true)
  rw [List.append_nil, List.append_nil] at replacement
  have arrow : Writes true (.arrow :: declaration.replacement.map .element) _ :=
    .space ' ' rfl (.piece .arrow rfl (.space ' ' rfl replacement))
  have colon : Writes false (.colon :: (declaration.pattern.map .element ++ _)) _ :=
    .piece .colon rfl (.space ' ' rfl (Writes.side declaration.pattern arrow))
  have whole : Writes false (.family declaration.family :: _) _ :=
    .piece (.family declaration.family) rfl (.space ' ' rfl colon)
  rw [text, String.toList_append, String.toList_append, String.toList_append,
    String.toList_append, List.append_assoc, List.append_assoc, List.append_assoc]
  exact whole

/-- A declaration with a family that is a word and not reserved, balanced sides of which the
first is not empty, and no placeholder that only the second one has is read from every text
that writes it.  Whatever is read of any text is such a declaration, so that its own text is
read as it again. -/
theorem Declaration.parse_round_trip :
    (∀ declaration : Declaration, declaration.Valid → ∀ text : String,
      Writes false declaration.pieces text.toList → parse text = .ok declaration) ∧
    (∀ declaration : Declaration, Writes false declaration.pieces declaration.text.toList) ∧
    ∀ (text : String) (declaration : Declaration), parse text = .ok declaration →
      declaration.Valid ∧ parse declaration.text = .ok declaration := by
  refine ⟨fun declaration valid text writes => valid.parse_writes writes, writes_text, ?_⟩
  intro text declaration accepted
  have valid := valid_of_parse accepted
  exact ⟨valid, valid.parse_writes declaration.writes_text⟩

/-- `Odd: ~X && (E) | => E`, with operators that stand next to each other. -/
def oddDeclaration : Declaration :=
  ⟨"Odd", [.neg, .x, .conj, .conj, .opening, .run, .closing, .disj], [.run]⟩

theorem oddDeclaration_valid : oddDeclaration.Valid where
  isWord := .of_name "Odd" (IsName.of_all (by decide +kernel) (by decide +kernel))
  notReserved := by decide
  nonempty := List.cons_ne_nil _ _
  patternBalanced := by decide
  replacementBalanced := by decide
  bound := (unbound?_eq_none_iff _ _).mp (by decide)

theorem Declaration.parse_round_trip_joint :
    oddDeclaration.Valid ∧ parse "Odd:~X&&(E)|=>E\n" = .ok oddDeclaration ∧
      parse oddDeclaration.text = .ok oddDeclaration := by
  obtain ⟨reads, _, rereads⟩ := parse_round_trip
  have replacement : Writes false [.element .run] "E\n".toList :=
    .piece (.element .run) rfl (.space '\n' rfl (.done false))
  have arrow : Writes true [.element .closing, .element .disj, .arrow, .element .run]
      ")|=>E\n".toList :=
    .piece (.element .closing) rfl
      (.piece (.element .disj) rfl (.piece .arrow rfl replacement))
  have pattern : Writes false (oddDeclaration.pattern.map .element ++ [.arrow, .element .run])
      "~X&&(E)|=>E\n".toList :=
    .piece (.element .neg) rfl (.piece (.element .x) rfl (.piece (.element .conj) rfl
      (.piece (.element .conj) rfl (.piece (.element .opening) rfl
        (.piece (.element .run) rfl arrow)))))
  have accepted : parse "Odd:~X&&(E)|=>E\n" = .ok oddDeclaration := by
    apply reads oddDeclaration oddDeclaration_valid
    exact .piece (.family "Odd") rfl (.piece .colon rfl pattern)
  exact ⟨oddDeclaration_valid, accepted, (rereads _ _ accepted).2⟩

end BoolSimplify.RuleText
