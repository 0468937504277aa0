import Terrain.Binary64.Basic

/-! ## Interchange format

The 64-bit form of a double: a sign bit, eleven bits of biased exponent, and 52 bits of
significand without its leading one. -/

namespace Terrain.Binary64

private theorem canonical_of_subnormal {m : Nat} (h : m < 2 ^ 52) : Canonical m (-1074) :=
  ⟨by omega, by omega, by omega, .inr rfl⟩

private theorem canonical_of_normal {m k : Nat} (hm : m < 2 ^ 52) (hk : k < 2046) :
    Canonical (2 ^ 52 + m) ((k : Int) - 1074) :=
  ⟨by omega, by omega, by omega, .inl (by omega)⟩

/-- Reads the interchange format. All patterns of a NaN read as the one NaN. -/
def ofBits (bits : UInt64) : Binary64 :=
  let negative := decide (2 ^ 63 ≤ bits.toNat)
  let exponent := bits.toNat / 2 ^ 52 % 2 ^ 11
  let m := bits.toNat % 2 ^ 52
  have hm : m < 2 ^ 52 := Nat.mod_lt _ (by decide)
  match exponent with
  | 0 => .finite negative m (-1074) (canonical_of_subnormal hm)
  | k + 1 =>
    if hk : k < 2046 then
      .finite negative (2 ^ 52 + m) ((k : Int) - 1074) (canonical_of_normal hm hk)
    else if m = 0 then .infinite negative else .nan

/-- The bits of the magnitude of a canonical form. -/
def magnitudeBits (m : Nat) (e : Int) : Nat :=
  if m < 2 ^ 52 then m else (e + 1075).toNat * 2 ^ 52 + (m - 2 ^ 52)

/-- Writes the interchange format; a NaN is written as the positive quiet one. -/
def toBits : Binary64 → UInt64
  | .nan => 0x7ff8000000000000
  | .infinite negative => if negative then 0xfff0000000000000 else 0x7ff0000000000000
  | .finite negative m e _ =>
    UInt64.ofNat ((if negative then 2 ^ 63 else 0) + magnitudeBits m e)

end Terrain.Binary64
