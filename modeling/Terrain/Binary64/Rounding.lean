/-! ## Rounding of exact numbers

The two exact functions that every double is made with: the binary order of magnitude of a
positive rational, and the nearest integer with a half going to the even neighbour. -/

namespace Terrain

/-- The exponent `k` with `2 ^ k ≤ q < 2 ^ (k + 1)`, for a positive `q`. The difference of the
    lengths of numerator and denominator is that exponent or one too many. -/
def floorLog2 (q : Rat) : Int :=
  let k : Int := (Nat.log2 q.num.natAbs : Int) - (Nat.log2 q.den : Int)
  if q < 2 ^ k then k - 1 else k

/-- The nearest integer; a half goes to the even neighbour. -/
def roundHalfEven (q : Rat) : Int :=
  let below := q.floor
  let excess := q - below
  if excess < 1 / 2 then below
  else if 1 / 2 < excess then below + 1
  else if below % 2 = 0 then below
  else below + 1

end Terrain
