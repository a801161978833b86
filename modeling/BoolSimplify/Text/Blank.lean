/-
White space.

The class is the Unicode property `White_Space`, which holds more than the
blanks of ASCII.
-/

import BoolSimplify.Text.CharRange

namespace BoolSimplify

def blankRanges : List (Nat × Nat) :=
  [(0x0009, 0x000D), (0x0020, 0x0020), (0x0085, 0x0085), (0x00A0, 0x00A0), (0x1680, 0x1680),
   (0x2000, 0x200A), (0x2028, 0x2029), (0x202F, 0x202F), (0x205F, 0x205F), (0x3000, 0x3000)]

def isBlank (char : Char) : Bool :=
  inRanges blankRanges char

def trimEnd (chars : List Char) : List Char :=
  (chars.reverse.dropWhile isBlank).reverse

def trim (chars : List Char) : List Char :=
  trimEnd (chars.dropWhile isBlank)

end BoolSimplify
