/-
Lines of a stream of bytes.
-/

namespace BoolSimplify

def lineFeed : UInt8 := 10

def carriageReturn : UInt8 := 13

/-- A line of which `read` was read, newest byte first, without its ending. -/
def endedLine (read : List UInt8) : List UInt8 :=
  match read with
  | [] => []
  | byte :: earlier => if byte = carriageReturn then earlier.reverse else read.reverse

/-- The lines of `bytes` after `read`, newest first, was read of the first one.
What follows the last line feed is a line unless it is empty. -/
def linesAfter : (read : List UInt8) → (bytes : List UInt8) → List (List UInt8)
  | read, [] => if read = [] then [] else [read.reverse]
  | read, byte :: rest =>
      if byte = lineFeed then endedLine read :: linesAfter [] rest
      else linesAfter (byte :: read) rest

def linesOf (bytes : List UInt8) : List (List UInt8) :=
  linesAfter [] bytes

def decode (bytes : List UInt8) : Option String :=
  String.fromUTF8? ⟨bytes.toArray⟩

def encode (text : String) : List UInt8 :=
  text.toUTF8.data.toList

theorem decode_encode (text : String) : decode (encode text) = some text := by
  simp only [decode, encode, String.fromUTF8?, Array.toArray_toList]
  exact dif_pos text.isValidUTF8

end BoolSimplify
