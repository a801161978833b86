/-
The lines of a stream of bytes and the texts in them.

Splitting at line feeds gives the lines, of which the last one has no line feed behind it
and is none when it is empty.  A carriage return before a line feed belongs to the ending.
Bytes cut off a stream after a line feed have the lines they would have alone, since no
character but the line feed has that byte in its encoding.
-/

import BoolSimplify.Batch
import Mathlib.Data.List.Basic

namespace BoolSimplify

/-! ### Encoded text -/

theorem encode_eq_flatMap (text : String) :
    encode text = text.toList.flatMap String.utf8EncodeChar := by
  have encoded : text.toList.utf8Encode = text.toUTF8 := String.utf8Encode_toList
  rw [encode, ← encoded, List.utf8Encode, List.toList_data_toByteArray]

theorem encode_append (left right : String) :
    encode (left ++ right) = encode left ++ encode right := by
  simp only [encode_eq_flatMap, String.toList_append, List.flatMap_append]

theorem encode_newline : encode "\n" = [lineFeed] := by decide +kernel

theorem decode_eq_some_iff (bytes : List UInt8) (text : String) :
    decode bytes = some text ↔ encode text = bytes := by
  constructor
  · intro read
    rw [decode, String.fromUTF8?] at read
    split at read
    · cases read
      rfl
    · cases read
  · rintro rfl
    exact decode_encode text

theorem ascii_mem_utf8EncodeChar (byte : UInt8) (ascii : Char)
    (written : String.utf8EncodeChar ascii = [byte]) (same : byte.toNat = ascii.val.toNat)
    (small : byte.toNat < 128) (char : Char) :
    byte ∈ String.utf8EncodeChar char ↔ char = ascii := by
  constructor
  · intro member
    have large (value : Nat) (above : 128 ≤ value) (below : value < 256) :
        byte ≠ UInt8.ofNat value := by
      intro same
      rw [same, UInt8.toNat_ofNat_of_lt' below] at small
      omega
    by_cases single : char.val.toNat ≤ 0x7f
    · simp only [String.utf8EncodeChar, if_pos single, List.mem_singleton] at member
      have sameNumber := congrArg UInt8.toNat member
      rw [UInt8.toNat_ofNat_of_lt' (Nat.lt_of_le_of_lt single (by decide)), same] at sameNumber
      exact Char.ext (UInt32.toNat_inj.mp sameNumber.symm)
    · simp only [String.utf8EncodeChar, if_neg single] at member
      split at member
      · simp only [List.mem_cons, List.not_mem_nil, or_false] at member
        rcases member with same | same
        all_goals exact absurd same (large _ (by omega) (by omega))
      · split at member
        · simp only [List.mem_cons, List.not_mem_nil, or_false] at member
          rcases member with same | same | same
          all_goals exact absurd same (large _ (by omega) (by omega))
        · simp only [List.mem_cons, List.not_mem_nil, or_false] at member
          rcases member with same | same | same | same
          all_goals exact absurd same (large _ (by omega) (by omega))
  · rintro rfl
    rw [written]
    exact List.mem_singleton_self byte

theorem lineFeed_mem_utf8EncodeChar (char : Char) :
    lineFeed ∈ String.utf8EncodeChar char ↔ char = '\n' :=
  ascii_mem_utf8EncodeChar lineFeed _ rfl rfl (by decide) char

theorem carriageReturn_mem_utf8EncodeChar (char : Char) :
    carriageReturn ∈ String.utf8EncodeChar char ↔ char = '\r' :=
  ascii_mem_utf8EncodeChar carriageReturn _ rfl rfl (by decide) char

theorem lineFeed_mem_encode (text : String) : lineFeed ∈ encode text ↔ '\n' ∈ text.toList := by
  rw [encode_eq_flatMap, List.mem_flatMap]
  constructor
  · rintro ⟨char, member, isFeed⟩
    rwa [← (lineFeed_mem_utf8EncodeChar char).mp isFeed]
  · intro member
    exact ⟨'\n', member, (lineFeed_mem_utf8EncodeChar '\n').mpr rfl⟩

theorem getLast?_encode (text : String) (other : text.toList.getLast? ≠ some '\r') :
    (encode text).getLast? ≠ some carriageReturn := by
  rw [encode_eq_flatMap]
  rcases List.eq_nil_or_concat text.toList with empty | ⟨earlier, last, spelled⟩
  · rw [empty]
    exact Option.some_ne_none _ |>.symm
  · rw [spelled, List.concat_eq_append, List.getLast?_concat] at other
    rw [spelled, List.concat_eq_append, List.flatMap_append, List.flatMap_singleton,
      List.getLast?_append_of_ne_nil]
    · intro ends
      have member := List.mem_of_getLast? ends
      rw [carriageReturn_mem_utf8EncodeChar] at member
      exact other (congrArg some member)
    · exact String.utf8EncodeChar_ne_nil

/-! ### Lines -/

/-- A line without the carriage return at its end, if it has one. -/
def withoutReturn (line : List UInt8) : List UInt8 :=
  if line.getLast? = some carriageReturn then line.dropLast else line

theorem endedLine_reverse (line : List UInt8) : endedLine line.reverse = withoutReturn line := by
  rcases List.eq_nil_or_concat line with rfl | ⟨earlier, byte, rfl⟩
  · rfl
  · rw [List.concat_eq_append, List.reverse_concat, endedLine, withoutReturn,
      List.getLast?_concat, List.dropLast_concat, List.reverse_cons, List.reverse_reverse]
    simp only [Option.some.injEq]

/-- The lines of the bytes, split at line feeds. -/
def splitLines (bytes : List UInt8) : List (List UInt8) :=
  let pieces := bytes.splitOn lineFeed
  pieces.dropLast.map withoutReturn ++ pieces.getLast?.toList.filter (· ≠ [])

theorem linesAfter_eq_splitLines (read bytes : List UInt8) (noFeed : lineFeed ∉ read) :
    linesAfter read.reverse bytes = splitLines (read ++ bytes) := by
  induction bytes generalizing read with
  | nil =>
      rw [List.append_nil, splitLines, List.splitOn_eq_singleton noFeed, linesAfter]
      simp only [List.reverse_eq_nil_iff, List.reverse_reverse]
      by_cases empty : read = []
      · subst empty
        rfl
      · rw [if_neg empty]
        simp [empty]
  | cons byte rest ih =>
      rw [linesAfter]
      by_cases isFeed : byte = lineFeed
      · subst isFeed
        rw [if_pos rfl, endedLine_reverse, splitLines,
          List.splitOn_append_cons_self_of_not_mem noFeed]
        have later := ih [] List.not_mem_nil
        rw [List.reverse_nil, List.nil_append, splitLines] at later
        rw [later]
        have someRest := List.splitOn_ne_nil lineFeed rest
        rw [List.dropLast_cons_of_ne_nil someRest, List.map_cons, List.cons_append]
        rw [List.getLast?_cons_of_ne_nil someRest]
      · rw [if_neg isFeed, ← List.reverse_concat, ih]
        · rw [List.append_assoc]
          rfl
        · rw [List.mem_append, List.mem_singleton]
          rintro (inRead | same)
          · exact noFeed inRead
          · exact isFeed same.symm

theorem linesOf_eq_splitLines (bytes : List UInt8) : linesOf bytes = splitLines bytes :=
  linesAfter_eq_splitLines [] bytes List.not_mem_nil

theorem lineFeed_not_mem_linesAfter (read bytes : List UInt8) (noFeed : lineFeed ∉ read) :
    ∀ line ∈ linesAfter read bytes, lineFeed ∉ line := by
  induction bytes generalizing read with
  | nil =>
      intro line member
      rw [linesAfter] at member
      split at member
      · cases member
      · cases List.mem_singleton.mp member
        rwa [List.mem_reverse]
  | cons byte rest ih =>
      rw [linesAfter]
      by_cases isFeed : byte = lineFeed
      · rw [if_pos isFeed, List.forall_mem_cons]
        refine ⟨?_, ih [] List.not_mem_nil⟩
        cases read with
        | nil => exact List.not_mem_nil
        | cons last earlier =>
            rw [endedLine]
            split
            · rw [List.mem_reverse]
              exact fun member => noFeed (List.mem_cons_of_mem _ member)
            · rwa [List.mem_reverse]
      · rw [if_neg isFeed]
        apply ih
        rw [List.mem_cons, not_or]
        exact ⟨fun same => isFeed same.symm, noFeed⟩

theorem lineFeed_not_mem_linesOf (bytes : List UInt8) : ∀ line ∈ linesOf bytes, lineFeed ∉ line :=
  lineFeed_not_mem_linesAfter [] bytes List.not_mem_nil

/-- Bytes that are nothing or end with a line feed. -/
def EndsLine (bytes : List UInt8) : Prop :=
  ∀ last ∈ bytes.getLast?, last = lineFeed

theorem linesAfter_append (read first second : List UInt8) (someFirst : first ≠ [])
    (ends : EndsLine first) :
    linesAfter read (first ++ second) = linesAfter read first ++ linesOf second := by
  induction first generalizing read with
  | nil => exact absurd rfl someFirst
  | cons byte rest ih =>
      rw [List.cons_append, linesAfter, linesAfter]
      by_cases last : rest = []
      · subst last
        cases ends byte rfl
        rw [if_pos rfl, if_pos rfl]
        rfl
      · have laterEnds : EndsLine rest := by
          rwa [EndsLine, List.getLast?_cons_of_ne_nil last] at ends
        split
        · rw [ih [] last laterEnds, List.cons_append]
        · exact ih (byte :: read) last laterEnds

theorem linesOf_append (first second : List UInt8) (ends : EndsLine first) :
    linesOf (first ++ second) = linesOf first ++ linesOf second := by
  by_cases empty : first = []
  · subst empty
    rfl
  · exact linesAfter_append [] first second empty ends

theorem linesAfter_skip (read line rest : List UInt8) (noFeed : lineFeed ∉ line) :
    linesAfter read (line ++ rest) = linesAfter (line.reverse ++ read) rest := by
  induction line generalizing read with
  | nil => rfl
  | cons byte line ih =>
      rw [List.mem_cons, not_or] at noFeed
      obtain ⟨notFeed, later⟩ := noFeed
      rw [List.cons_append, linesAfter, if_neg (Ne.symm notFeed), ih _ later, List.reverse_cons,
        List.append_assoc]
      rfl

theorem linesAfter_line (read line rest : List UInt8) (noFeed : lineFeed ∉ line) :
    linesAfter read (line ++ lineFeed :: rest) =
      endedLine (line.reverse ++ read) :: linesOf rest := by
  rw [linesAfter_skip read line _ noFeed, linesAfter, if_pos rfl]
  rfl

/-- Lines that are written one after the other are read again, provided that none holds a line
feed or ends like a line ending. -/
theorem linesOf_lines (lines : List (List UInt8))
    (clean : ∀ line ∈ lines, lineFeed ∉ line ∧ line.getLast? ≠ some carriageReturn) :
    linesOf (lines.flatMap fun line => line ++ [lineFeed]) = lines := by
  induction lines with
  | nil => rfl
  | cons line lines ih =>
      obtain ⟨⟨noFeed, noReturn⟩, later⟩ := List.forall_mem_cons.mp clean
      rw [List.flatMap_cons, List.append_assoc, linesOf, List.singleton_append,
        linesAfter_line [] line _ noFeed, List.append_nil, endedLine_reverse, withoutReturn,
        if_neg noReturn, ih later]

theorem exists_encode_withoutReturn (text : String) :
    ∃ line, encode line = withoutReturn (encode text) := by
  rw [withoutReturn]
  split
  · rename_i returns
    have ends := mt (getLast?_encode text) (not_not_intro returns)
    obtain ⟨earlier, spelled⟩ := List.getLast?_eq_some_iff.mp (not_not.mp ends)
    refine ⟨String.ofList earlier, ?_⟩
    rw [encode_eq_flatMap, encode_eq_flatMap, spelled, String.toList_ofList, List.flatMap_append]
    exact List.dropLast_concat.symm
  · exact ⟨text, rfl⟩

/-- Where a text is read, each of its lines is the encoding of a text. -/
theorem exists_encode_of_mem_linesAfter (read chars : List Char) :
    ∀ line ∈ linesAfter (encode (String.ofList read)).reverse (encode (String.ofList chars)),
      ∃ text, encode text = line := by
  induction chars generalizing read with
  | nil =>
      intro line member
      change line ∈ linesAfter _ [] at member
      rw [linesAfter, List.reverse_reverse] at member
      split at member
      · cases member
      · exact ⟨_, (List.mem_singleton.mp member).symm⟩
  | cons char chars ih =>
      have spelled : encode (String.ofList (char :: chars)) =
          String.utf8EncodeChar char ++ encode (String.ofList chars) := by
        simp only [encode_eq_flatMap, String.toList_ofList, List.flatMap_cons]
      rw [spelled]
      by_cases isFeed : char = '\n'
      · subst isFeed
        change ∀ line ∈ linesAfter _ (lineFeed :: _), _
        rw [linesAfter, if_pos rfl, endedLine_reverse, List.forall_mem_cons]
        exact ⟨exists_encode_withoutReturn _, ih []⟩
      · have further : (String.utf8EncodeChar char).reverse ++ (encode (String.ofList read)).reverse =
            (encode (String.ofList (read ++ [char]))).reverse := by
          simp only [encode_eq_flatMap, String.toList_ofList, List.flatMap_append,
            List.flatMap_singleton, List.reverse_append]
        rw [linesAfter_skip _ _ _ (mt (lineFeed_mem_utf8EncodeChar char).mp isFeed), further]
        exact ih (read ++ [char])

theorem decode_linesOf_encode (text : String) :
    ∀ line ∈ linesOf (encode text), (decode line).isSome := by
  intro line member
  have lines := exists_encode_of_mem_linesAfter [] text.toList line
  rw [String.ofList_toList] at lines
  obtain ⟨lineText, rfl⟩ := lines member
  rw [decode_encode]
  rfl

/-! ### Trimmed text -/

/-- Text with no white space at its ends. -/
structure Trimmed (chars : List Char) : Prop where
  starts : ∀ char ∈ chars.head?, isBlank char = false
  ends : ∀ char ∈ chars.getLast?, isBlank char = false

theorem dropWhile_blank_iff (chars rest : List Char) :
    chars.dropWhile isBlank = rest ↔ (∀ char ∈ rest.head?, isBlank char = false) ∧
      ∃ before, (∀ char ∈ before, isBlank char = true) ∧ chars = before ++ rest := by
  constructor
  · rintro rfl
    refine ⟨?_, chars.takeWhile isBlank, ?_, List.takeWhile_append_dropWhile.symm⟩
    · intro char first
      have notBlank := List.head?_dropWhile_not isBlank chars
      rw [first] at notBlank
      exact notBlank
    · exact List.all_eq_true.mp List.all_takeWhile
  · rintro ⟨starts, before, blank, rfl⟩
    rw [List.dropWhile_append_of_pos blank]
    cases rest with
    | nil => rfl
    | cons char rest => exact List.dropWhile_cons_of_neg (by rw [starts char rfl]; decide)

theorem trimEnd_eq_iff (chars rest : List Char) :
    trimEnd chars = rest ↔ (∀ char ∈ rest.getLast?, isBlank char = false) ∧
      ∃ after, (∀ char ∈ after, isBlank char = true) ∧ chars = rest ++ after := by
  rw [trimEnd, List.reverse_eq_iff, dropWhile_blank_iff, List.head?_reverse]
  refine and_congr_right fun _ => ?_
  constructor
  · rintro ⟨before, blank, reversed⟩
    refine ⟨before.reverse, fun char member => blank char (List.mem_reverse.mp member), ?_⟩
    rw [List.reverse_eq_iff] at reversed
    rw [reversed, List.reverse_append, List.reverse_reverse]
  · rintro ⟨after, blank, rfl⟩
    exact ⟨after.reverse, fun char member => blank char (List.mem_reverse.mp member),
      List.reverse_append⟩

theorem trim_eq_iff (chars trimmed : List Char) :
    trim chars = trimmed ↔ Trimmed trimmed ∧ ∃ before after,
      (∀ char ∈ before, isBlank char = true) ∧ (∀ char ∈ after, isBlank char = true) ∧
        chars = before ++ (trimmed ++ after) := by
  rw [trim, trimEnd_eq_iff]
  constructor
  · rintro ⟨ends, after, blankAfter, split⟩
    obtain ⟨starts, before, blankBefore, whole⟩ := (dropWhile_blank_iff chars _).mp split
    refine ⟨⟨?_, ends⟩, before, after, blankBefore, blankAfter, whole⟩
    intro char first
    apply starts
    rw [List.head?_append, first]
    rfl
  · rintro ⟨⟨starts, ends⟩, before, after, blankBefore, blankAfter, rfl⟩
    refine ⟨ends, ?_⟩
    cases trimmed with
    | nil =>
        refine ⟨[], List.forall_mem_nil _, ?_⟩
        rw [dropWhile_blank_iff]
        refine ⟨starts, before ++ after, ?_, (List.append_nil _).symm⟩
        exact List.forall_mem_append.mpr ⟨blankBefore, blankAfter⟩
    | cons first rest =>
        refine ⟨after, blankAfter, ?_⟩
        rw [dropWhile_blank_iff]
        exact ⟨starts, before, blankBefore, rfl⟩

/-- Whether a line holds an expression, and which: what is left of it without the white
space around it, unless nothing is left or it is a comment. -/
structure Holds (line expression : String) : Prop where
  nonempty : expression ≠ ""
  notComment : expression.toList.head? ≠ some '#'
  trimmed : Trimmed expression.toList
  around : ∃ before after, (∀ char ∈ before, isBlank char = true) ∧
    (∀ char ∈ after, isBlank char = true) ∧
    line.toList = before ++ (expression.toList ++ after)

theorem expression?_eq_some_iff (line expression : String) :
    Batch.expression? line = some expression ↔ Holds line expression := by
  have trims := trim_eq_iff line.toList expression.toList
  rw [Batch.expression?]
  constructor
  · intro found
    split at found
    · cases found
    · cases found
    · rename_i nonempty notComment
      cases found
      rw [String.toList_ofList] at trims
      obtain ⟨trimmed, around⟩ := trims.mp rfl
      refine ⟨?_, ?_, ?_, ?_⟩
      · exact fun empty => nonempty (String.ofList_eq_empty_iff.mp empty)
      · rw [String.toList_ofList]
        intro first
        obtain ⟨rest, isComment⟩ := List.head?_eq_some_iff.mp first
        exact notComment rest isComment
      · rwa [String.toList_ofList]
      · rwa [String.toList_ofList]
  · rintro ⟨nonempty, notComment, trimmed, around⟩
    rw [trims.mpr ⟨trimmed, around⟩]
    split
    · rename_i empty
      exact absurd (String.toList_eq_nil_iff.mp empty) nonempty
    · rename_i rest isComment
      rw [isComment] at notComment
      exact absurd rfl notComment
    · rw [String.ofList_toList]

end BoolSimplify
