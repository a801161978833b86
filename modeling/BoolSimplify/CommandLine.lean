/-
The command line.

Expressions given as arguments are simplified one by one.  Without them, one
expression per line is read from a file or from the standard input, and its
answers go through a buffer.  The answer is computed from the arguments and from
what reading gave.
-/

import BoolSimplify.Batch.Writer
import BoolSimplify.CommandLine.Options

namespace BoolSimplify.CommandLine

structure Response where
  code : Nat
  output : List UInt8
  messages : List String
  deriving DecidableEq, Repr

def versionText : String := "boolcalc 0.1.0\n"

def helpText : String :=
  "Simplify boolean expressions over A, B and C\n\n" ++
  "Usage: boolcalc [OPTIONS] [EXPRESSION]...\n\n" ++
  "Arguments:\n" ++
  "  [EXPRESSION]...  Expressions to simplify, e.g. \"(A & B) | (A & C)\"\n\n" ++
  "Options:\n" ++
  "  -f, --file <FILE>              Read one expression per line from FILE (\"-\" for stdin)\n" ++
  "  -p, --max-passes <MAX_PASSES>  Catalog passes allowed per expression [default: 500]\n" ++
  "  -s, --summary                  Print pass and rewrite counts to stderr\n" ++
  "  -v, --verbose...               Increase log verbosity (-v for debug, -vv for trace)\n" ++
  "  -h, --help                     Print help\n" ++
  "  -V, --version                  Print version\n"

def misuseText : String :=
  "error: invalid arguments\n\nUsage: boolcalc [OPTIONS] [EXPRESSION]...\n\n" ++
  "For more information, try '--help'."

def evaluationError : String := "evaluation error"

inductive Source where
  | arguments (expressions : List String)
  | standardInput
  | file (path : String)
  deriving DecidableEq, Repr

namespace Options

def source (options : Options) : Source :=
  if options.expressions.isEmpty then
    match options.file with
    | some path => if path = "-" then .standardInput else .file path
    | none => .standardInput
  else .arguments options.expressions

def simplifier (options : Options) : Simplifier :=
  ⟨options.maxPasses.getD defaultMaxPasses⟩

def level (options : Options) : Level :=
  match options.verbosity with
  | 0 => .warn
  | 1 => .debug
  | _ => .trace

def reports (options : Options) (events : List Event) : List String :=
  (events.filter fun event => options.level.rank ≤ event.level.rank).map Event.text

def summaryLine (options : Options) (line : String) : List String :=
  if options.summary then [line] else []

def errorLine (options : Options) (error : StreamError) : String :=
  match options.file with
  | some path => "Error reading '" ++ path ++ "': " ++ error.message
  | none => "Error reading stdin: " ++ error.message

end Options

def answerExpression (options : Options) (expression : String) : Response :=
  let outcome := options.simplifier.simplify expression
  match outcome.result with
  | .ok result =>
      ⟨0,
        encode ("Original: " ++ result.input ++ "\nSimplified: " ++ result.simplified ++ "\n"),
        options.reports outcome.events ++ options.summaryLine result.stats.text⟩
  | .error failure =>
      ⟨1, encode (evaluationError ++ "\n" ++ invalidExpression ++ "\n"),
        options.reports (outcome.events ++ [.requestFailed failure])⟩

/-- The answers to expressions given as arguments.  The exit code is zero when
every one of them was simplified. -/
def answerExpressions (options : Options) : (expressions : List String) → Response
  | [] => ⟨0, [], []⟩
  | expression :: rest =>
      let first := answerExpression options expression
      let later := answerExpressions options rest
      ⟨max first.code later.code, first.output ++ later.output, first.messages ++ later.messages⟩

def bufferCapacity : Nat := 8192

/-- The answer to a batch, of which `content` was read.  The buffer is closed before the
program ends, also when the batch was broken off. -/
def answerBatch (options : Options) (content : Except StreamError (List UInt8)) : Response :=
  let written :=
    Batch.write (Buffer.writer bufferCapacity) options.simplifier content Buffer.empty
  let output := written.state.close
  let reports := options.reports written.events
  match written.totals with
  | .ok totals =>
      ⟨if totals.failed = 0 then 0 else 1, output, reports ++ options.summaryLine totals.text⟩
  | .error error => ⟨1, output, reports ++ [options.errorLine error]⟩

def answerStop : Stop → Response
  | .version => ⟨0, encode versionText, []⟩
  | .help => ⟨0, encode helpText, []⟩
  | .misuse => ⟨2, [], [misuseText]⟩

/-- The answer to options, when `content` is what their source holds. -/
def answer (options : Options) (content : Except StreamError (List UInt8)) : Response :=
  match options.source with
  | .arguments expressions => answerExpressions options expressions
  | .standardInput | .file _ => answerBatch options content

/-- The answer to arguments for a program that finds `standardInput` on its input
and `files` at the paths that it reads. -/
def run (arguments : List String) (standardInput : List UInt8) (files : Files) : Response :=
  match read arguments with
  | .error stop => answerStop stop
  | .ok options =>
      answer options <|
        match options.source with
        | .arguments _ => .ok []
        | .standardInput => .ok standardInput
        | .file path => files path

end BoolSimplify.CommandLine
