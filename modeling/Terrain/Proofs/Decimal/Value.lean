import Terrain.Decimal.Basic
import Terrain.Proofs.Binary64.Range

/-! ## The value of a decimal

A decimal is rounded by its value and its sign alone: what is past the range or below it is not
computed in full, but the answer is the same. -/

namespace Terrain.Decimal

variable {d : Decimal}

theorem abs_toRat (d : Decimal) : |d.toRat| = d.digits * 10 ^ d.exponent := by
  rw [toRat, abs_mul, abs_of_nonneg (by positivity : (0 : Rat) ≤ d.digits * 10 ^ d.exponent)]
  cases d.negative <;> simp

theorem abs_toRat_pos (h : d.digits ≠ 0) : 0 < |d.toRat| := by
  rw [abs_toRat]
  have hdigits : (0 : Rat) < d.digits := by exact_mod_cast Nat.pos_of_ne_zero h
  positivity

theorem negative_eq (h : d.digits ≠ 0) : decide (d.toRat < 0) = d.negative := by
  have hpos : (0 : Rat) < d.digits * 10 ^ d.exponent := by
    rw [← abs_toRat]
    exact abs_toRat_pos h
  unfold toRat
  cases d.negative with
  | false => simpa using hpos.le
  | true => simpa using hpos

theorem two_zpow_le_ten_zpow : (2 : Rat) ^ (1300 : Int) ≤ 10 ^ (400 : Int) := by
  calc (2 : Rat) ^ (1300 : Int) = (2 ^ 13) ^ 100 := by
        rw [← pow_mul]
        exact zpow_natCast 2 1300
    _ ≤ (10 ^ 4) ^ 100 := pow_le_pow_left₀ (by norm_num) (by norm_num) 100
    _ = 10 ^ (400 : Int) := by
        rw [← pow_mul]
        exact (zpow_natCast 10 400).symm

theorem le_abs_toRat (h : d.digits ≠ 0) (hlarge : 400 < d.exponent) :
    2 ^ (1024 : Int) ≤ |d.toRat| := by
  have hdigits : (1 : Rat) ≤ d.digits := by exact_mod_cast Nat.one_le_iff_ne_zero.mpr h
  rw [abs_toRat]
  calc (2 : Rat) ^ (1024 : Int) ≤ 2 ^ (1300 : Int) := zpow_le_zpow_right₀ one_le_two (by omega)
    _ ≤ 10 ^ (400 : Int) := two_zpow_le_ten_zpow
    _ ≤ 10 ^ d.exponent := zpow_le_zpow_right₀ (by norm_num) hlarge.le
    _ ≤ d.digits * 10 ^ d.exponent := le_mul_of_one_le_left (by positivity) hdigits

theorem abs_toRat_lt (hsmall : d.exponent < -400 - (Nat.log2 d.digits : Int)) :
    |d.toRat| < 2 ^ (-1075 : Int) := by
  have hdigits : (d.digits : Rat) < 10 ^ ((Nat.log2 d.digits : Int) + 1) := by
    calc (d.digits : Rat) < 2 ^ (Nat.log2 d.digits + 1) := by exact_mod_cast Nat.lt_log2_self
      _ ≤ 10 ^ (Nat.log2 d.digits + 1) := pow_le_pow_left₀ zero_le_two (by norm_num) _
      _ = 10 ^ ((Nat.log2 d.digits : Int) + 1) := (zpow_natCast 10 _).symm
  rw [abs_toRat]
  calc (d.digits : Rat) * 10 ^ d.exponent
      < 10 ^ ((Nat.log2 d.digits : Int) + 1) * 10 ^ d.exponent :=
        mul_lt_mul_of_pos_right hdigits (by positivity)
    _ = 10 ^ ((Nat.log2 d.digits : Int) + 1 + d.exponent) := (zpow_add₀ (by norm_num) _ _).symm
    _ ≤ 10 ^ (-400 : Int) := zpow_le_zpow_right₀ (by norm_num) (by omega)
    _ ≤ 2 ^ (-1300 : Int) := by
        rw [zpow_neg, zpow_neg]
        exact inv_anti₀ (by positivity) two_zpow_le_ten_zpow
    _ ≤ 2 ^ (-1075 : Int) := zpow_le_zpow_right₀ one_le_two (by omega)

/-- Rounding a decimal is rounding its value. -/
theorem toBinary64_eq (d : Decimal) : d.toBinary64 = .ofRat d.negative d.toRat := by
  unfold toBinary64
  split
  · rename_i hzero
    have hvalue : d.toRat = 0 := by
      rw [toRat, hzero, Nat.cast_zero, zero_mul, mul_zero]
    rw [hvalue, Binary64.ofRat_zero]
  · rename_i hdigits
    split
    · rename_i hlarge
      rw [Binary64.ofRat_infinite (le_abs_toRat hdigits hlarge), negative_eq hdigits]
    · split
      · rename_i hsmall
        rw [Binary64.ofRat_tiny (abs_pos.mp (abs_toRat_pos hdigits)) (abs_toRat_lt hsmall).le,
          negative_eq hdigits]
      · rfl

theorem toBinary64_congr {d e : Decimal} (hnegative : d.negative = e.negative)
    (hvalue : d.toRat = e.toRat) : d.toBinary64 = e.toBinary64 := by
  rw [toBinary64_eq, toBinary64_eq, hnegative, hvalue]

/-- Digits and exponent can be traded for each other. -/
theorem toBinary64_shift (negative : Bool) (digits : Nat) (exponent : Int) (k : Nat) :
    (mk negative (digits * 10 ^ k) exponent).toBinary64 =
      (mk negative digits (exponent + k)).toBinary64 := by
  refine toBinary64_congr rfl ?_
  rw [toRat, toRat, Nat.cast_mul, Nat.cast_pow, Nat.cast_ofNat, zpow_add₀ (by norm_num),
    zpow_natCast]
  ring

end Terrain.Decimal
