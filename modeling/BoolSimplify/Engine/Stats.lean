/-
Counters of the work done on an expression.
-/

namespace BoolSimplify

structure Stats where
  /-- Passes of the rules, over all groups and the top level -/
  passes : Nat
  replacements : Nat
  /-- Groups whose interior reached a fixed point -/
  groups : Nat
  deriving DecidableEq, Repr

namespace Stats

def zero : Stats := ⟨0, 0, 0⟩

def countPass (stats : Stats) (replacements : Nat) : Stats :=
  { stats with passes := stats.passes + 1, replacements := stats.replacements + replacements }

def countGroup (stats : Stats) : Stats :=
  { stats with groups := stats.groups + 1 }

def add (first second : Stats) : Stats :=
  ⟨first.passes + second.passes, first.replacements + second.replacements,
    first.groups + second.groups⟩

def text (stats : Stats) : String :=
  s!"passes: {stats.passes}, rewrites: {stats.replacements}, groups: {stats.groups}"

end Stats

end BoolSimplify
