/-
The program behind the command line.

This file reads what the arguments name and writes the answer.  It decides
nothing.
-/

import BoolSimplify.CommandLine

namespace BoolSimplify

def streamError (error : IO.Error) : StreamError :=
  match error with
  | .noFileOrDirectory .. => .missing
  | .inappropriateType _ code _ => if code = 21 then .directory else .notDirectory
  | other => .other (toString other)

def readBytes (action : IO ByteArray) : IO (Except StreamError (List UInt8)) := do
  try
    return .ok (← action).toList
  catch error =>
    return .error (streamError error)

def readSource : CommandLine.Source → IO (Except StreamError (List UInt8))
  | .arguments _ => return .ok []
  | .standardInput => do readBytes (← IO.getStdin).readBinToEnd
  | .file path => readBytes (IO.FS.readBinFile path)

def writeResponse (response : CommandLine.Response) : IO UInt32 := do
  let output ← IO.getStdout
  output.write response.output.toByteArray
  output.flush
  response.messages.forM IO.eprintln
  return response.code.toUInt32

end BoolSimplify

open BoolSimplify in
def main (arguments : List String) : IO UInt32 :=
  match CommandLine.read arguments with
  | .error stop => writeResponse (CommandLine.answerStop stop)
  | .ok options => do
      writeResponse (CommandLine.answer options (← readSource options.source))
