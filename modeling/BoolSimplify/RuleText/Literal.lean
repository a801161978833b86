/-
Literals of the rule notation.

No rule holds a literal, but text, characters and numbers have to be recognised
as such, because what looks like a bracket or a comment inside them is none.
Every function here gives what follows a literal at the front of a list of
characters.
-/

import BoolSimplify.RuleText.Word

namespace BoolSimplify.RuleText

def isDigit (char : Char) : Bool :=
  '0' ≤ char && char ≤ '9'

def hexValue? (char : Char) : Option Nat :=
  if isDigit char then some (char.toNat - 48)
  else if 'a' ≤ char && char ≤ 'f' then some (char.toNat - 87)
  else if 'A' ≤ char && char ≤ 'F' then some (char.toNat - 55)
  else none

/-! ### Quoted text -/

inductive QuoteKind where
  | text
  | bytes
  | terminated
  deriving DecidableEq, Repr

def QuoteKind.allows (kind : QuoteKind) (char : Char) : Bool :=
  match kind with
  | text => true
  | bytes => char.toNat < 128
  | terminated => char != '\x00'

inductive QuoteState where
  | plain
  | ending
  | escape
  | codeHigh
  | codeLow (high : Nat)
  | pointOpening
  | point (digits value : Nat)
  | gap
  | gapEnding
  deriving DecidableEq, Repr

inductive QuoteStep where
  | next (state : QuoteState)
  | closed
  | refused
  deriving DecidableEq, Repr

/-- A code point that is a character and, where NUL is not allowed, another one. -/
def QuoteKind.allowsPoint (kind : QuoteKind) (value : Nat) : Bool :=
  decide (value.isValidChar) && (kind != terminated || value != 0)

def QuoteKind.plainStep (kind : QuoteKind) (char : Char) : QuoteStep :=
  match char with
  | '"' => .closed
  | '\r' => .next .ending
  | '\\' => .next .escape
  | other => if kind.allows other then .next .plain else .refused

def QuoteKind.escapeStep (kind : QuoteKind) (char : Char) : QuoteStep :=
  match char with
  | 'n' | 'r' | 't' | '\\' | '\'' | '"' => .next .plain
  | '0' => if kind = terminated then .refused else .next .plain
  | 'x' => .next .codeHigh
  | 'u' => if kind = bytes then .refused else .next .pointOpening
  | '\n' => .next .gap
  | '\r' => .next .gapEnding
  | _ => .refused

def QuoteKind.step (kind : QuoteKind) (state : QuoteState) (char : Char) : QuoteStep :=
  match state with
  | .plain => kind.plainStep char
  | .ending => if char = '\n' then .next .plain else .refused
  | .escape => kind.escapeStep char
  | .codeHigh =>
      match hexValue? char with
      | some high => if kind = text && 8 ≤ high then .refused else .next (.codeLow high)
      | none => .refused
  | .codeLow high =>
      match hexValue? char with
      | some low => if kind = terminated && high + low = 0 then .refused else .next .plain
      | none => .refused
  | .pointOpening => if char = '\x7b' then .next (.point 0 0) else .refused
  | .point digits value =>
      match hexValue? char with
      | some digit =>
          if digits = 6 then .refused else .next (.point (digits + 1) (16 * value + digit))
      | none =>
          if digits = 0 then .refused
          else if char = '_' then .next (.point digits value)
          else if char = '\x7d' && kind.allowsPoint value then .next .plain
          else .refused
  | .gap =>
      match char with
      | ' ' | '\t' | '\n' => .next .gap
      | '\r' => .next .gapEnding
      | other => kind.plainStep other
  | .gapEnding => if char = '\n' then .next .gap else .refused

/-- Reads a quoted literal to its end.  An identifier that follows at once is
part of it. -/
def quoted? (kind : QuoteKind) : (state : QuoteState) → (chars : List Char) → Option (List Char)
  | _, [] => none
  | state, char :: rest =>
      match kind.step state char with
      | .next state => quoted? kind state rest
      | .closed => some (dropIdentifier rest)
      | .refused => none

/-- Reads a quoted literal without escapes to the quote that `hashes` signs `#`
follow. -/
def rawBody? (kind : QuoteKind) (hashes : Nat) : (chars : List Char) → Option (List Char)
  | [] => none
  | '\r' :: '\n' :: rest => rawBody? kind hashes rest
  | '\r' :: _ => none
  | '"' :: rest =>
      if rest.take hashes = List.replicate hashes '#' then
        some (dropIdentifier (rest.drop hashes))
      else rawBody? kind hashes rest
  | char :: rest => if kind.allows char then rawBody? kind hashes rest else none

def raw? (kind : QuoteKind) (chars : List Char) : Option (List Char) :=
  let hashes := (chars.takeWhile (· == '#')).length
  match chars.drop hashes with
  | '"' :: rest => if hashes ≤ 255 then rawBody? kind hashes rest else none
  | _ => none

/-! ### Characters -/

def escaped? (kind : QuoteKind) : (state : QuoteState) → (chars : List Char) → Option (List Char)
  | _, [] => none
  | state, char :: rest =>
      match kind.step state char with
      | .next .plain => some rest
      | .next .gap | .next .gapEnding => none
      | .next state => escaped? kind state rest
      | .closed | .refused => none

def closingQuote? : (chars : List Char) → Option (List Char)
  | '\'' :: rest => some (dropIdentifier rest)
  | _ => none

def character? (kind : QuoteKind) : (chars : List Char) → Option (List Char)
  | [] => none
  | '\\' :: rest => (escaped? kind .escape rest).bind closingQuote?
  | char :: rest => if kind.allows char then closingQuote? rest else none

/-! ### Numbers -/

def dropDigits (chars : List Char) : List Char :=
  chars.dropWhile fun char => isDigit char || char == '_'

def exponent? : (signed valued : Bool) → (chars : List Char) → Option (List Char)
  | _, valued, [] => if valued then some [] else none
  | signed, valued, char :: rest =>
      if isDigit char then exponent? signed true rest
      else if char == '_' then exponent? signed valued rest
      else if valued then some (char :: rest)
      else if !signed && (char == '+' || char == '-') then exponent? true valued rest
      else none

def fraction? (chars : List Char) : Option (List Char) :=
  if chars.head?.any fun char => char == '.' || startsIdentifier char then none
  else
    match dropDigits chars with
    | [] => some []
    | char :: rest =>
        if char == 'e' || char == 'E' then
          some ((exponent? false false rest).getD (char :: rest))
        else some (char :: rest)

def float? : (chars : List Char) → Option (List Char)
  | [] => none
  | first :: rest =>
      if !isDigit first then none
      else
        match dropDigits rest with
        | '.' :: rest => fraction? rest
        | 'e' :: rest => exponent? false false rest
        | 'E' :: rest => exponent? false false rest
        | _ => none

/-- Reads the digits of a whole number.  Until one is `found`, there is no number. -/
def digits? (base : Nat) : (found : Bool) → (chars : List Char) → Option (List Char)
  | found, [] => if found then some [] else none
  | found, char :: rest =>
      if char == '_' then
        if !found && base == 10 then none else digits? base found rest
      else
        match hexValue? char with
        | some value =>
            if value < base then digits? base true rest
            else if value < 10 then none
            else if found then some (char :: rest)
            else none
        | none => if found then some (char :: rest) else none

def integer? : (chars : List Char) → Option (List Char)
  | '0' :: 'x' :: rest => digits? 16 false rest
  | '0' :: 'o' :: rest => digits? 8 false rest
  | '0' :: 'b' :: rest => digits? 2 false rest
  | chars => digits? 10 false chars

/-- Reads the identifier that may follow the digits of a number.  Nothing else
that continues an identifier may follow. -/
def numberEnd? (chars : List Char) : Option (List Char) :=
  let rest := dropIdentifier chars
  if rest.head?.any continuesIdentifier then none else some rest

def number? (chars : List Char) : Option (List Char) :=
  ((float? chars).bind numberEnd?).or ((integer? chars).bind numberEnd?)

def literal? : (chars : List Char) → Option (List Char)
  | '"' :: rest => quoted? .text .plain rest
  | 'r' :: rest => raw? .text rest
  | 'b' :: '"' :: rest => quoted? .bytes .plain rest
  | 'b' :: 'r' :: rest => raw? .bytes rest
  | 'b' :: '\'' :: rest => character? .bytes rest
  | 'c' :: '"' :: rest => quoted? .terminated .plain rest
  | 'c' :: 'r' :: rest => raw? .terminated rest
  | '\'' :: rest => character? .text rest
  | chars => number? chars

end BoolSimplify.RuleText
