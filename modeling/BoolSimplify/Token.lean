/-
Tokens of the expression language.

The language knows three letters; every other fragment that is neither an
operator nor a truth value is a word.  Words are opaque: they are carried
through and written back as they were read.
-/

import BoolSimplify.Symbol

namespace BoolSimplify

inductive Letter where
  | a | b | c
  deriving DecidableEq, Repr

namespace Letter

def all : List Letter := [a, b, c]

def text : Letter → String
  | a => "A"
  | b => "B"
  | c => "C"

end Letter

inductive Name where
  | letter (letter : Letter)
  | word (text : String)
  deriving DecidableEq, Repr

abbrev Token := Symbol Name

namespace Token

@[match_pattern] abbrev letter (known : Letter) : Token := .atom (.letter known)

@[match_pattern] abbrev word (unknown : String) : Token := .atom (.word unknown)

/-- Classifies a fragment of text.  Spelling and case must agree exactly;
whatever is not known is a word. -/
def ofFragment (fragment : String) : Token :=
  match fragment with
  | "A" => letter .a
  | "B" => letter .b
  | "C" => letter .c
  | "True" => .truth true
  | "False" => .truth false
  | "&" => .conj
  | "|" => .disj
  | "~" => .neg
  | "(" => .opening
  | ")" => .closing
  | unknown => word unknown

def text : Token → String
  | .opening => "("
  | .closing => ")"
  | .conj => "&"
  | .disj => "|"
  | .neg => "~"
  | .truth true => "True"
  | .truth false => "False"
  | .atom (.letter known) => known.text
  | .atom (.word unknown) => unknown

end Token

end BoolSimplify
