/-
Quoted text.

A text is quoted so that it can be read in a message without ambiguity: it
stands between double quotes, a few control characters have short escapes, and
every other character without a glyph of its own is written by its code point.
-/

import BoolSimplify.Text.Escaped

namespace BoolSimplify

def hexDigit (value : Nat) : Char :=
  if value < 10 then Char.ofNat (48 + value) else Char.ofNat (87 + value)

/-- A code point in hexadecimal without leading zeros.  Six digits suffice for
every code point, so the recursion stops with its argument. -/
def hexDigits : (digits : Nat) → (value : Nat) → List Char
  | 0, _ => []
  | digits + 1, value =>
      if value < 16 then [hexDigit value]
      else hexDigits digits (value / 16) ++ [hexDigit (value % 16)]

def quoteChar (char : Char) : List Char :=
  match char with
  | '\x00' => ['\\', '0']
  | '\t' => ['\\', 't']
  | '\r' => ['\\', 'r']
  | '\n' => ['\\', 'n']
  | '"' => ['\\', '"']
  | '\\' => ['\\', '\\']
  | other =>
      if isEscaped other then
        ['\\', 'u', '\x7b'] ++ hexDigits 6 other.toNat ++ ['\x7d']
      else [other]

def quote (text : String) : String :=
  String.ofList (['"'] ++ text.toList.flatMap quoteChar ++ ['"'])

end BoolSimplify
