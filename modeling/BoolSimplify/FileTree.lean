/-
Files that are held in memory.

They answer paths in place of a file system in which there is nothing else and the place
of their directory is not known, and are one example of `Files`.
-/

import BoolSimplify.StreamError

namespace BoolSimplify

/-- Files under one directory, each with its path from there.  The directories
on the way to a file exist with it. -/
structure FileTree where
  files : List (String × List UInt8)
  deriving DecidableEq, Repr

namespace FileTree

def splitPath : List Char → List (List Char)
  | [] => [[]]
  | '/' :: rest => [] :: splitPath rest
  | char :: rest =>
      match splitPath rest with
      | [] => [[char]]
      | name :: others => (char :: name) :: others

def parts (path : String) : List String :=
  (splitPath path.toList).map String.ofList

def isHere (part : String) : Bool :=
  part == "" || part == "."

def route (path : String) : List String :=
  (parts path).filter (!isHere ·)

def file? (tree : FileTree) (names : List String) : Option (List UInt8) :=
  (tree.files.find? fun (path, _) => route path == names).map Prod.snd

def isDirectory (tree : FileTree) (names : List String) : Bool :=
  names.isEmpty ||
    tree.files.any fun (path, _) => names.isPrefixOf (route path) && names != route path

/-- Outside the tree only directories above it are known. -/
def readOutside (parts : List String) : Except StreamError (List UInt8) :=
  if parts.all fun part => isHere part || part == ".." then .error .directory else .error .missing

def readFrom (tree : FileTree) :
    (here : List String) → (parts : List String) → Except StreamError (List UInt8)
  | _, [] => .error .directory
  | here, part :: rest =>
      if isHere part then tree.readFrom here rest
      else if part == ".." then
        if here.isEmpty then readOutside rest else tree.readFrom here.dropLast rest
      else
        let there := here ++ [part]
        match tree.file? there with
        | some content => if rest.isEmpty then .ok content else .error .notDirectory
        | none => if tree.isDirectory there then tree.readFrom there rest else .error .missing

def read (tree : FileTree) (path : String) : Except StreamError (List UInt8) :=
  if path.toList.head? = some '/' then readOutside (parts path) else tree.readFrom [] (parts path)

instance : Coe FileTree Files where
  coe := read

end FileTree

end BoolSimplify
