import Terrain.Decimal.Basic

/-! ## Shortest decimals

The decimal that a double is written as: the fewest digits that read back as that double, and of
those the nearest. For each number of digits only the two neighbours of the exact value on that
decimal grid have to be tried. -/

namespace Terrain

/-- The exponent `k` with `10 ^ k ≤ q < 10 ^ (k + 1)`, for a positive `q`. -/
def floorLog10 (q : Rat) : Int :=
  let k : Int := ((Nat.toDigits 10 q.num.natAbs).length : Int) - (Nat.toDigits 10 q.den).length
  if q < 10 ^ k then k - 1 else k

namespace Binary64

/-- A double written out in full: its significand times a power of two, or times the power of
    five that turns the power of two into one of ten. -/
def exactDecimal (negative : Bool) (m : Nat) (e : Int) : Decimal :=
  if 0 ≤ e then ⟨negative, m * 2 ^ e.toNat, 0⟩ else ⟨negative, m * 5 ^ (-e).toNat, e⟩

/-- The neighbours of a positive number `q` among the decimals of `n` digits: the one below or
    at it, and the one above. -/
def decimalNeighbors (negative : Bool) (q : Rat) (n : Nat) : Decimal × Decimal :=
  let k := floorLog10 q - (n - 1 : Nat)
  let below := (q / 10 ^ k).floor.toNat
  (⟨negative, below, k⟩,
    if below + 1 = 10 ^ n then ⟨negative, 1, k + n⟩ else ⟨negative, below + 1, k⟩)

/-- A decimal of `n` digits that reads back as `x`, if there is one; the nearer of two, and the
    one farther from zero when both are equally near. -/
def decimalOfLength? (x : Binary64) (n : Nat) : Option Decimal :=
  let q := x.toRat.abs
  let (below, above) := decimalNeighbors x.isNegative q n
  -- Rounding can take both neighbours back to `x`, one of them, or none.
  match decide (below.toBinary64 = x), decide (above.toBinary64 = x) with
  | true, true =>
    some (if q - below.toRat.abs < above.toRat.abs - q then below else above)
  | true, false => some below
  | false, true => some above
  | false, false => none

/-- The shortest decimal that reads back as a double with the given form. Seventeen digits always
    suffice. -/
def shortest (negative : Bool) (m : Nat) (e : Int) (h : Canonical m e) : Decimal :=
  if m = 0 then ⟨negative, 0, 0⟩
  else ((List.range' 1 17).findSome? (decimalOfLength? (.finite negative m e h))).getD
    (exactDecimal negative m e)

/-- The text of a double: the shortest decimal in positional form. -/
def toChars : Binary64 → List Char
  | .nan => "NaN".toList
  | .infinite negative => if negative then "-inf".toList else "inf".toList
  | .finite negative m e h => (shortest negative m e h).positional

/-- Whether a double is a whole number. -/
def isWhole : Binary64 → Bool
  | x@(.finite ..) => decide (x.toRat.den = 1)
  | _ => false

end Binary64
end Terrain
