import Terrain.Binary64.Basic

/-! ## Decimal numbers

A decimal is a sign, a natural number of digits and a power of ten. It is what a numeral says
before any rounding; `toBinary64` rounds it once, and `positional` writes it without an
exponent. -/

namespace Terrain

/-- The number `± digits · 10 ^ exponent`. -/
structure Decimal where
  negative : Bool
  digits : Nat
  exponent : Int
  deriving DecidableEq

namespace Decimal

/-! ### Value -/

/-- The exact value, without the sign of a zero. -/
def toRat (d : Decimal) : Rat :=
  (if d.negative then -1 else 1) * ((d.digits : Rat) * 10 ^ d.exponent)

/-- The nearest double. A number of at least `10 ^ 400` is past the largest double, and one below
    `10 ^ (-399)` is nearer to zero than to the least; neither needs its exact value. -/
def toBinary64 (d : Decimal) : Binary64 :=
  if d.digits = 0 then .zero d.negative
  else if 400 < d.exponent then .infinite d.negative
  else if d.exponent < -400 - (Nat.log2 d.digits : Int) then .zero d.negative
  else .ofRat d.negative d.toRat

/-! ### Reading -/

/-- The number that a run of digits stands for. -/
def ofDigits (ds : List Char) : Nat :=
  ds.foldl (fun n c => 10 * n + (c.toNat - '0'.toNat)) 0

/-- An optional sign in front of a numeral. -/
def splitSign : List Char → Bool × List Char
  | '+' :: s => (false, s)
  | '-' :: s => (true, s)
  | s => (false, s)

/-- The power of ten after the digits: nothing, or a letter `e`, an optional sign and digits. -/
def exponentOf? : List Char → Option Int
  | [] => some 0
  | c :: s =>
    let (negative, ds) := splitSign s
    if (c = 'e' ∨ c = 'E') ∧ ds ≠ [] ∧ ds.all Char.isDigit then
      some (if negative then -(ofDigits ds : Int) else ofDigits ds)
    else none

/-- Reads a numeral: an optional sign, digits with an optional point before, among or after them,
    and an optional exponent. -/
def ofChars? (s : List Char) : Option Decimal :=
  let (negative, s) := splitSign s
  let (whole, s) := s.span Char.isDigit
  let (fraction, s) := match s with
    | '.' :: r => r.span Char.isDigit
    | r => ([], r)
  if whole ++ fraction = [] then none
  else (exponentOf? s).map fun e =>
    ⟨negative, ofDigits (whole ++ fraction), e - fraction.length⟩

/-! ### Writing -/

/-- The digits of a natural number. -/
def digitsOf (n : Nat) : List Char := Nat.toDigits 10 n

/-- The number written without an exponent, and without a point when it is whole. -/
def positional (d : Decimal) : List Char :=
  let ds := digitsOf d.digits
  let places := (-d.exponent).toNat
  let magnitude :=
    if 0 ≤ d.exponent then ds ++ List.replicate d.exponent.toNat '0'
    else if places < ds.length then
      ds.take (ds.length - places) ++ '.' :: ds.drop (ds.length - places)
    else '0' :: '.' :: List.replicate (places - ds.length) '0' ++ ds
  if d.negative then '-' :: magnitude else magnitude

end Decimal
end Terrain
