import Terrain.Proofs.Binary64.Rounding

/-! ## Rounding at the ends of the range

What is too large for a double is rounded to an infinity, what is too small to a zero, and a
double is rounded to itself, with its sign. -/

namespace Terrain.Binary64

/-! ### Doubles -/

/-- A double lies on the grid of its own exponent. -/
theorem gridExponent_eq {m : Nat} {e : Int} (hm : Canonical m e) :
    gridExponent (m * 2 ^ e) = e := by
  obtain ⟨hbits, hleast, _, hnormal⟩ := hm
  by_cases hzero : m = 0
  · subst hzero
    rw [Nat.cast_zero, zero_mul, gridExponent, if_pos rfl]
    omega
  have hstep : (0 : Rat) < 2 ^ e := zpow_pos two_pos e
  have hpos : (0 : Rat) < m * 2 ^ e := mul_pos (by exact_mod_cast Nat.pos_of_ne_zero hzero) hstep
  have hbelow : (m : Rat) * 2 ^ e < 2 ^ (e + 53) := by
    rw [add_comm, zpow_add₀ two_ne_zero]
    exact mul_lt_mul_of_pos_right (by exact_mod_cast hbits) hstep
  refine le_antisymm (gridExponent_le hpos hleast hbelow) ?_
  rcases hnormal with hnormal | rfl
  · have hlow : (2 : Rat) ^ (52 + e) ≤ m * 2 ^ e := by
      rw [zpow_add₀ two_ne_zero]
      exact mul_le_mul_of_nonneg_right (by exact_mod_cast hnormal) hstep.le
    refine le_of_not_gt fun hlt => absurd (lt_of_gridExponent hpos) (not_lt.mpr ?_)
    exact (zpow_le_zpow_right₀ one_le_two (by omega)).trans hlow
  · exact le_gridExponent _

/-- A double is rounded to itself. -/
theorem ofRat_toRat {x : Binary64} (hx : x.isFinite = true) : ofRat x.isNegative x.toRat = x := by
  have hsign : (if x.toRat = 0 then x.isNegative else decide (x.toRat < 0)) = x.isNegative := by
    split
    · rfl
    · rename_i hne
      exact (isNegative_eq hne).symm
  cases x with
  | nan => cases hx
  | infinite s => cases hx
  | finite s m e hm =>
    have hsteps : (m : Rat) * 2 ^ e / 2 ^ e = (m : Int) := by
      rw [mul_div_assoc, div_self (zpow_pos two_pos e).ne', mul_one, Int.cast_natCast]
    unfold ofRat
    dsimp only
    rw [hsign, rat_abs_eq, abs_toRat_finite, gridExponent_eq hm, hsteps, roundHalfEven_intCast,
      Int.toNat_natCast, if_neg hm.1.ne]
    exact dif_pos hm

/-! ### Other numbers -/

/-- What is at least twice the largest power of two is rounded to an infinity. -/
theorem ofRat_infinite {q : Rat} (h : 2 ^ (1024 : Int) ≤ |q|) (s : Bool) :
    ofRat s q = .infinite (decide (q < 0)) := by
  have hpos : 0 < |q| := (zpow_pos two_pos _).trans_le h
  have hgrid : 971 < gridExponent |q| := by
    refine lt_of_not_ge fun hle => absurd (lt_of_gridExponent hpos) (not_lt.mpr ?_)
    exact (zpow_le_zpow_right₀ one_le_two (by omega)).trans h
  unfold ofRat
  dsimp only
  rw [rat_abs_eq, if_neg (abs_pos.mp hpos)]
  split
  · exact dif_neg fun hc => by have := hc.2.2.1; omega
  · exact dif_neg fun hc => by have := hc.2.2.1; omega

/-- What is no more than half the least double is rounded to a zero. -/
theorem ofRat_tiny {q : Rat} (hq : q ≠ 0) (h : |q| ≤ 2 ^ (-1075 : Int)) (s : Bool) :
    ofRat s q = zero (decide (q < 0)) := by
  have hgrid : gridExponent |q| = -1074 := by
    refine le_antisymm (gridExponent_le (abs_pos.mpr hq) le_rfl (h.trans_lt ?_))
      (le_gridExponent _)
    exact zpow_lt_zpow_right₀ one_lt_two (by omega)
  have hhalf : (2 : Rat) ^ (-1074 : Int) = 2 * 2 ^ (-1075 : Int) :=
    zpow_one_add₀ two_ne_zero (-1075)
  have hsteps : |q| / 2 ^ (-1074 : Int) ≤ 1 / 2 := by
    rw [div_le_iff₀ (zpow_pos two_pos _), hhalf, ← mul_assoc, one_div_mul_cancel two_ne_zero,
      one_mul]
    exact h
  have hround : roundHalfEven (|q| / 2 ^ (-1074 : Int)) = 0 := by
    refine roundHalfEven_eq_of_even rfl ?_
    rw [Int.cast_zero, zero_sub, abs_neg, abs_of_nonneg (by positivity)]
    exact hsteps
  unfold ofRat
  dsimp only
  rw [rat_abs_eq, hgrid, hround, if_neg hq]
  rfl

end Terrain.Binary64
