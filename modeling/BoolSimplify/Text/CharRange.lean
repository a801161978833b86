/-
Classes of characters given as tables of code points.
-/

namespace BoolSimplify

/-- A character is in a class when one of the class's ranges, whose ends are
both included, contains its code point. -/
def inRanges (ranges : List (Nat × Nat)) (char : Char) : Bool :=
  ranges.any fun (first, last) => first ≤ char.toNat && char.toNat ≤ last

end BoolSimplify
