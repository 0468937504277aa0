import Terrain.Text.GraphemeExtend
import Terrain.Text.Unprintable

/-! ## Characters that are written by number

Inside quoted text a character that would not be seen, or that would join the character before it,
is written by its code point. -/

namespace Terrain.Text

/-- Whether a code point lies in one of the ranges. -/
def inRanges (ranges : List (Nat × Nat)) (n : Nat) : Bool :=
  ranges.any fun (lo, hi) => decide (lo ≤ n) && decide (n ≤ hi)

/-- Whether a character joins the one before it. -/
def isGraphemeExtend (c : Char) : Bool := inRanges graphemeExtendRanges c.toNat

/-- Whether a character has a visible form. The space counts as one. -/
def isPrintable (c : Char) : Bool := !inRanges unprintableRanges c.toNat

/-- Whether a character is written by its code point. -/
def isNumbered (c : Char) : Bool := isGraphemeExtend c || !isPrintable c

end Terrain.Text
