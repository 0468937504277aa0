import Terrain.Binary64.Rounding
import Terrain.Word

/-! ## Binary64

Double-precision numbers as exact data: a sign, an integer significand and an exponent of two in
the one canonical form, the two infinities, and a single NaN. Every operation is the exact
rational operation followed by one rounding (`ofRat`), with the usual rules for the special
values and for the sign of zero. -/

namespace Terrain

/-- The form in which a significand `m` and an exponent `e` stand for the magnitude `m · 2 ^ e`:
    53 bits at most, the exponent in range, and no spare leading bit unless the exponent is the
    least one. Each magnitude has one such form. -/
def Canonical (m : Nat) (e : Int) : Prop :=
  m < 2 ^ 53 ∧ -1074 ≤ e ∧ e ≤ 971 ∧ (2 ^ 52 ≤ m ∨ e = -1074)

instance (m : Nat) (e : Int) : Decidable (Canonical m e) :=
  inferInstanceAs (Decidable (_ ∧ _ ∧ _ ∧ _))

/-- A double. Zero keeps its sign. -/
inductive Binary64 where
  | nan
  | infinite (negative : Bool)
  | finite (negative : Bool) (m : Nat) (e : Int) (canonical : Canonical m e)
  deriving DecidableEq

namespace Binary64

/-- Positive or negative zero. -/
def zero (negative : Bool) : Binary64 := .finite negative 0 (-1074) (by decide)

instance : Inhabited Binary64 := ⟨zero false⟩

/-! ### Exact value -/

/-- The rational number that a finite double stands for; the special values stand for none and
    read as zero. -/
def toRat : Binary64 → Rat
  | .finite negative m e _ => (if negative then -1 else 1) * ((m : Rat) * 2 ^ e)
  | _ => 0

/-- The sign bit; a NaN has none. -/
def isNegative : Binary64 → Bool
  | .nan => false
  | .infinite negative => negative
  | .finite negative _ _ _ => negative

/-- Neither a NaN nor infinite. -/
def isFinite : Binary64 → Bool
  | .finite .. => true
  | _ => false

/-! ### Rounding -/

/-- The exponent of the grid on which the magnitude `q` is rounded: the one that leaves 53 bits,
    but not below the least exponent. -/
def gridExponent (q : Rat) : Int :=
  if q = 0 then -1074 else max (-1074) (floorLog2 q - 52)

/-- The double nearest to `q`, ties to even. What rounds past the largest finite double is
    infinite. The sign of an exact zero is given; any other result has the sign of `q`, also when
    it rounds to zero. -/
def ofRat (negativeZero : Bool) (q : Rat) : Binary64 :=
  let negative := if q = 0 then negativeZero else decide (q < 0)
  let e := gridExponent q.abs
  let m := (roundHalfEven (q.abs / 2 ^ e)).toNat
  -- 53 ones that round up make the next power of two.
  let (m, e) := if m = 2 ^ 53 then (2 ^ 52, e + 1) else (m, e)
  if h : Canonical m e then .finite negative m e h else .infinite negative

/-- The double nearest to an integer; zero is positive. -/
def ofInt (n : Int) : Binary64 := ofRat false n

/-! ### Arithmetic -/

/-- The same magnitude with the other sign. -/
def neg : Binary64 → Binary64
  | .nan => .nan
  | .infinite negative => .infinite (!negative)
  | .finite negative m e h => .finite (!negative) m e h

/-- The rounded sum. Opposite infinities have none; a zero sum is negative only when both terms
    are. -/
def add : Binary64 → Binary64 → Binary64
  | .nan, _ | _, .nan => .nan
  | .infinite s, .infinite t => if s = t then .infinite s else .nan
  | .infinite s, .finite .. => .infinite s
  | .finite .., .infinite t => .infinite t
  | x@(.finite s ..), y@(.finite t ..) => ofRat (s && t) (x.toRat + y.toRat)

/-- The rounded difference. -/
def sub (x y : Binary64) : Binary64 := x.add y.neg

/-- The rounded product. Zero times infinity has none. -/
def mul : Binary64 → Binary64 → Binary64
  | .nan, _ | _, .nan => .nan
  | .infinite s, .infinite t => .infinite (s != t)
  | .infinite s, .finite t m _ _ => if m = 0 then .nan else .infinite (s != t)
  | .finite s m _ _, .infinite t => if m = 0 then .nan else .infinite (s != t)
  | x@(.finite s ..), y@(.finite t ..) => ofRat (s != t) (x.toRat * y.toRat)

/-- The rounded quotient. Zero by zero and infinity by infinity have none; any other number by
    zero is infinite. -/
def div : Binary64 → Binary64 → Binary64
  | .nan, _ | _, .nan => .nan
  | .infinite _, .infinite _ => .nan
  | .infinite s, .finite t _ _ _ => .infinite (s != t)
  | .finite s _ _ _, .infinite t => zero (s != t)
  | x@(.finite s m _ _), y@(.finite t n _ _) =>
    if n = 0 then (if m = 0 then .nan else .infinite (s != t))
    else ofRat (s != t) (x.toRat / y.toRat)

instance : Neg Binary64 := ⟨neg⟩
instance : Add Binary64 := ⟨add⟩
instance : Sub Binary64 := ⟨sub⟩
instance : Mul Binary64 := ⟨mul⟩
instance : Div Binary64 := ⟨div⟩

/-! ### Comparison and conversion -/

/-- Numeric equality: the two zeros are equal, and a NaN equals nothing. -/
def numEq : Binary64 → Binary64 → Bool
  | .infinite s, .infinite t => s == t
  | x@(.finite ..), y@(.finite ..) => decide (x.toRat = y.toRat)
  | _, _ => false

/-- The largest integer not above a finite double. -/
def floor? : Binary64 → Option Int
  | x@(.finite ..) => some x.toRat.floor
  | _ => none

/-- The integer part toward zero, kept between `lo` and `hi`; a NaN gives zero. -/
def truncateWithin (lo hi : Int) : Binary64 → Int
  | .nan => 0
  | .infinite negative => if negative then lo else hi
  | x@(.finite ..) =>
    let q := x.toRat
    max lo (min hi (if q < 0 then q.ceil else q.floor))

end Binary64
end Terrain
