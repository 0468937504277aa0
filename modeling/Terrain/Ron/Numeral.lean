import Terrain.Decimal.Shortest
import Terrain.Ron.Quoted
import Terrain.Word

/-! ## Numerals

How a run of numeral characters reads as an integer and as a double, and how doubles are written.
A run has no type of its own: whoever expects a number reads the run in the way it needs. -/

namespace Terrain.Ron.Numeral

/-! ### Integers -/

/-- The number that digits of a base stand for. Underlines between or after the digits do not
    count, but none may come first. -/
def digits? (base : Nat) (s : List Char) : Option Nat :=
  match s with
  | [] => none
  | '_' :: _ => none
  | s => (s.filter (· != '_')).foldlM (fun n c => do
      let d ← hexDigit? c
      if d < base then some (base * n + d) else none) 0

/-- A natural number: decimal, or in the base that its first two characters name. -/
def natural? : List Char → Option Nat
  | '0' :: 'x' :: s => digits? 16 s
  | '0' :: 'b' :: s => digits? 2 s
  | '0' :: 'o' :: s => digits? 8 s
  | s => digits? 10 s

/-- An integer: a natural number with an optional sign. -/
def integer? (s : List Char) : Option Int :=
  let (negative, s) := Decimal.splitSign s
  (natural? s).map fun n => if negative then -(n : Int) else n

/-- A signed 32-bit word. -/
def signed? (s : List Char) : Option Int32 := (integer? s).bind int32?

/-- An unsigned 32-bit word, which takes no sign. -/
def unsigned? (s : List Char) : Option UInt32 := (natural? s).bind fun n => uint32? n

/-! ### Doubles -/

/-- The special values, which are words rather than digits. -/
def special? (s : List Char) : Option Binary64 :=
  if s = "inf".toList ∨ s = "+inf".toList then some (.infinite false)
  else if s = "-inf".toList then some (.infinite true)
  else if s = "NaN".toList ∨ s = "+NaN".toList ∨ s = "-NaN".toList then some .nan
  else none

/-- A double: a special value or a decimal numeral. -/
def double? (s : List Char) : Option Binary64 :=
  -- A word is no numeral, so the order of the two does not matter.
  special? s <|> (Decimal.ofChars? s).map Decimal.toBinary64

/-- The written form of a double: the shortest decimal, with a point even when it is whole. -/
def ofDouble (x : Binary64) : List Char :=
  if x.isWhole then x.toChars ++ ['.', '0'] else x.toChars

/-! ### Any number -/

/-- Whether a run is a number where no kind of number is expected: a double or an integer of 64
    bits, signed if it has a sign. -/
def isNumber (s : List Char) : Bool :=
  (double? s).isSome ||
    match s with
    | '+' :: _ | '-' :: _ => (integer? s).any fun n => decide (-2 ^ 63 ≤ n) && decide (n < 2 ^ 63)
    | _ => (natural? s).any fun n => decide (n < 2 ^ 64)

end Terrain.Ron.Numeral
