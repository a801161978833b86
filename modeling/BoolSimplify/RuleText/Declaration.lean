/-
Declarations of rules.

A rule is declared as `Family: pattern => replacement`.  The two sides are
written in the symbols of the expression language with the placeholders `X`, `Y`,
`Z` and `E`, and a replacement may only hold placeholders of its pattern.
-/

import BoolSimplify.Rule.Element
import BoolSimplify.RuleText.Lexeme

namespace BoolSimplify.RuleText

/-- A rule as it is declared.  Its family need not be a known one. -/
structure Declaration where
  family : String
  pattern : List Element
  replacement : List Element
  deriving DecidableEq, Repr

inductive DeclarationError where
  | unreadable
  | wordExpected (atEnd : Bool)
  | reserved (word : String)
  | colonExpected
  | arrowExpected
  | emptyPattern (atEnd : Bool)
  | afterReplacement
  | unknownElement (word : String)
  | unbound (placeholder : Placeholder)
  deriving DecidableEq, Repr

def endNote (atEnd : Bool) : String :=
  if atEnd then "unexpected end of input, " else ""

def DeclarationError.message : DeclarationError → String
  | unreadable => "cannot parse string into token stream"
  | wordExpected atEnd => endNote atEnd ++ "expected identifier"
  | reserved word => "expected identifier, found keyword `" ++ word ++ "`"
  | colonExpected => "expected `:`"
  | arrowExpected => "expected `=>`"
  | emptyPattern atEnd => endNote atEnd ++ "rule pattern must not be empty"
  | afterReplacement => "unexpected tokens after the replacement"
  | unknownElement word =>
      "unknown rule element `" ++ word ++ "`; expected X, Y, Z, E, True or False"
  | unbound placeholder =>
      "placeholder `" ++ Element.text (.atom placeholder) ++ "` is not bound by the pattern"

def reservedWords : List String :=
  ["_", "abstract", "as", "async", "await", "become", "box", "break", "const", "continue",
   "crate", "do", "dyn", "else", "enum", "extern", "false", "final", "fn", "for", "if", "impl",
   "in", "let", "loop", "macro", "match", "mod", "move", "mut", "override", "priv", "pub", "ref",
   "return", "Self", "self", "static", "struct", "super", "trait", "true", "try", "type",
   "typeof", "unsafe", "unsized", "use", "virtual", "where", "while", "yield"]

def elementOfWord (word : String) : Except DeclarationError Element :=
  if reservedWords.contains word then .error (.reserved word)
  else
    match word with
    | "True" => .ok (.truth true)
    | "False" => .ok (.truth false)
    | "X" => .ok .x
    | "Y" => .ok .y
    | "Z" => .ok .z
    | "E" => .ok .run
    | unknown => .error (.unknownElement unknown)

abbrev Side := List Element × List Lexeme

def consElement (element : Element) (side : Except DeclarationError Side) :
    Except DeclarationError Side :=
  side.map fun (elements, rest) => (element :: elements, rest)

/-- Reads one side with `depth` groups open.  Outside all groups a side ends
before `=>`. -/
def readSide : (depth : Nat) → (lexemes : List Lexeme) → Except DeclarationError Side
  | 0, .sign '=' true :: .sign '>' joint :: rest =>
      .ok ([], .sign '=' true :: .sign '>' joint :: rest)
  | _, [] => .ok ([], [])
  | depth, .opening .round :: rest => consElement .opening (readSide (depth + 1) rest)
  | depth + 1, .closing .round :: rest => consElement .closing (readSide depth rest)
  | depth, .sign '&' _ :: rest => consElement .conj (readSide depth rest)
  | depth, .sign '|' _ :: rest => consElement .disj (readSide depth rest)
  | depth, .sign '~' _ :: rest => consElement .neg (readSide depth rest)
  | depth, .word word :: rest =>
      match elementOfWord word with
      | .ok element => consElement element (readSide depth rest)
      | .error error => .error error
  | _, _ => .error (.wordExpected false)

def readFamily : (lexemes : List Lexeme) → Except DeclarationError (String × List Lexeme)
  | [] => .error (.wordExpected true)
  | .word family :: rest =>
      if reservedWords.contains family then .error (.reserved family)
      else
        match rest with
        | .sign ':' _ :: rest => .ok (family, rest)
        | _ => .error .colonExpected
  | _ => .error (.wordExpected false)

def readArrow : (lexemes : List Lexeme) → Except DeclarationError (List Lexeme)
  | .sign '=' true :: .sign '>' _ :: rest => .ok rest
  | _ => .error .arrowExpected

def placeholder? : Element → Option Placeholder
  | .atom placeholder => some placeholder
  | _ => none

def unbound? (pattern replacement : List Element) : Option Placeholder :=
  (replacement.filterMap placeholder?).find? fun placeholder =>
    !(pattern.filterMap placeholder?).contains placeholder

def readDeclaration (lexemes : List Lexeme) : Except DeclarationError Declaration := do
  let (family, afterColon) ← readFamily lexemes
  let (pattern, afterPattern) ← readSide 0 afterColon
  if pattern.isEmpty then
    throw (.emptyPattern afterPattern.isEmpty)
  let afterArrow ← readArrow afterPattern
  let (replacement, afterReplacement) ← readSide 0 afterArrow
  if !afterReplacement.isEmpty then
    throw .afterReplacement
  match unbound? pattern replacement with
  | some placeholder => throw (.unbound placeholder)
  | none => return ⟨family, pattern, replacement⟩

namespace Declaration

def parse (text : String) : Except DeclarationError Declaration :=
  match lexemes? text with
  | some lexemes => readDeclaration lexemes
  | none => .error .unreadable

def text (declaration : Declaration) : String :=
  let side (elements : List Element) := " ".intercalate (elements.map Element.text)
  declaration.family ++ " : " ++ side declaration.pattern ++ " => " ++
    side declaration.replacement

end Declaration

end BoolSimplify.RuleText
