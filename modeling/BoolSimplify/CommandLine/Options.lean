/-
Reading the arguments of the command line.

Arguments are read from left to right, and the first one that is wrong or that
asks for the version or for help decides.  Short options may share one argument;
the value of an option may be attached to it or be the next argument.
-/

import BoolSimplify.Simplifier

namespace BoolSimplify.CommandLine

structure Options where
  expressions : List String
  /-- The file to read expressions from, where `-` is the standard input -/
  file : Option String
  maxPasses : Option Nat
  summary : Bool
  verbosity : Nat
  deriving DecidableEq, Repr

inductive Stop where
  | version
  | help
  | misuse
  deriving DecidableEq, Repr

inductive ValueOption where
  | file | maxPasses
  deriving DecidableEq, Repr

inductive Flag where
  | summary | verbose | version | help
  deriving DecidableEq, Repr

/-- A number in decimal digits, which a `+` may precede, of at most 64 bits. -/
def readCount (text : String) : Option Nat :=
  let digits :=
    match text.toList with
    | '+' :: digits => digits
    | digits => digits
  if digits.isEmpty || !digits.all (fun char => '0' ≤ char && char ≤ '9') then none
  else
    let value := digits.foldl (fun value digit => 10 * value + (digit.toNat - 48)) 0
    if value < UInt64.size then some value else none

namespace Options

def initial : Options := ⟨[], none, none, false, 0⟩

def setValue (options : Options) (option : ValueOption) (value : String) :
    Except Stop Options :=
  match option with
  | .file =>
      if options.file.isSome || value.isEmpty then .error .misuse
      else .ok { options with file := some value }
  | .maxPasses =>
      match options.maxPasses, readCount value with
      | none, some count => .ok { options with maxPasses := some count }
      | _, _ => .error .misuse

def setFlag (options : Options) : Flag → Except Stop Options
  | .summary => if options.summary then .error .misuse else .ok { options with summary := true }
  | .verbose => .ok { options with verbosity := options.verbosity + 1 }
  | .version => .error .version
  | .help => .error .help

def addExpression (options : Options) (expression : String) : Options :=
  { options with expressions := options.expressions ++ [expression] }

end Options

def shortOption? : Char → Option (ValueOption ⊕ Flag)
  | 'f' => some (.inl .file)
  | 'p' => some (.inl .maxPasses)
  | 's' => some (.inr .summary)
  | 'v' => some (.inr .verbose)
  | 'V' => some (.inr .version)
  | 'h' => some (.inr .help)
  | _ => none

def longOption? : String → Option (ValueOption ⊕ Flag)
  | "file" => some (.inl .file)
  | "max-passes" => some (.inl .maxPasses)
  | "summary" => some (.inr .summary)
  | "verbose" => some (.inr .verbose)
  | "version" => some (.inr .version)
  | "help" => some (.inr .help)
  | _ => none

/-- The options so far, and the option whose value is the next argument. -/
abbrev Progress := Options × Option ValueOption

/-- Reads short options that share one argument.  What follows an option with a
value in the same argument is its value, and a `=` before the value is dropped. -/
def readShort (options : Options) : List Char → Except Stop Progress
  | [] => .ok (options, none)
  | name :: rest =>
      match shortOption? name with
      | none => .error .misuse
      | some (.inr flag) =>
          match options.setFlag flag with
          | .ok options => readShort options rest
          | .error stop => .error stop
      | some (.inl option) =>
          match rest with
          | [] => .ok (options, some option)
          | '=' :: value =>
              (options.setValue option (String.ofList value)).map fun options => (options, none)
          | value =>
              (options.setValue option (String.ofList value)).map fun options => (options, none)

def readLong (options : Options) (text : List Char) : Except Stop Progress :=
  let name := text.takeWhile (· != '=')
  let attached := text.drop name.length
  match longOption? (String.ofList name), attached with
  | some (.inl option), [] => .ok (options, some option)
  | some (.inl option), _ :: value =>
      (options.setValue option (String.ofList value)).map fun options => (options, none)
  | some (.inr flag), [] => (options.setFlag flag).map fun options => (options, none)
  | _, _ => .error .misuse

/-- Reads arguments after `progress`.  The value of an option cannot look like an
option itself; after `--` every argument is an expression. -/
def readArguments : (progress : Progress) → (arguments : List String) → Except Stop Options
  | (options, none), [] => .ok options
  | (_, some _), [] => .error .misuse
  | (options, some option), argument :: rest =>
      match argument.toList with
      | '-' :: _ :: _ => .error .misuse
      | _ =>
          match options.setValue option argument with
          | .ok options => readArguments (options, none) rest
          | .error stop => .error stop
  | (options, none), argument :: rest =>
      match argument.toList with
      | ['-', '-'] => .ok (rest.foldl Options.addExpression options)
      | '-' :: '-' :: text =>
          match readLong options text with
          | .ok progress => readArguments progress rest
          | .error stop => .error stop
      | '-' :: name :: others =>
          match readShort options (name :: others) with
          | .ok progress => readArguments progress rest
          | .error stop => .error stop
      | _ => readArguments (options.addExpression argument, none) rest

/-- Reads all arguments.  Expressions are not read from a file and from the
arguments at once. -/
def read (arguments : List String) : Except Stop Options :=
  match readArguments (.initial, none) arguments with
  | .ok options =>
      if options.file.isSome && !options.expressions.isEmpty then .error .misuse
      else .ok options
  | .error stop => .error stop

end BoolSimplify.CommandLine
