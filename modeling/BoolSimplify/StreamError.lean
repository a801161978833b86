/-
Why a stream could not be read or written, and what reading the files at paths gives.
-/

import BoolSimplify.Engine.Failure

namespace BoolSimplify

inductive StreamError where
  | missing
  | directory
  | notDirectory
  | notText
  | full
  | failure (cause : Failure)
  | other (report : String)
  deriving DecidableEq, Repr

namespace StreamError

def message : StreamError → String
  | missing => "No such file or directory (os error 2)"
  | directory => "Is a directory (os error 21)"
  | notDirectory => "Not a directory (os error 20)"
  | notText => "stream did not contain valid UTF-8"
  | full => "failed to write whole buffer"
  | failure cause => cause.message
  | other report => report

end StreamError

/-- What reading the file at each path gives. -/
abbrev Files := String → Except StreamError (List UInt8)

end BoolSimplify
