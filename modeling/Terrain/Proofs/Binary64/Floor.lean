import Terrain.Proofs.Binary64.Range
import Terrain.Proofs.Binary64.Whole

/-! ## Rounding and floors

Rounding passes no double, and so no integer, but it may reach one that the exact number is below.
The quotient of a double by a size never does, unless it is so near below zero that it is rounded to
zero. The difference to an integer does when it is too fine for its grid, and it is never too fine
when it is no larger than the double. -/

namespace Terrain.Binary64

variable {x : Binary64} {q : Rat}

/-! ### Doubles and integers -/

theorem ofRat_le_toRat (hx : x.isFinite = true) (h : |q| < overflow) (hle : q ≤ x.toRat)
    (s : Bool) : (ofRat s q).toRat ≤ x.toRat := by
  have hnear := ofRat_nearest h s hx
  rw [abs_of_nonneg (sub_nonneg.mpr hle)] at hnear
  linarith [(abs_le.mp hnear).2]

theorem toRat_le_ofRat (hx : x.isFinite = true) (h : |q| < overflow) (hle : x.toRat ≤ q)
    (s : Bool) : x.toRat ≤ (ofRat s q).toRat := by
  have hnear := ofRat_nearest h s hx
  rw [abs_of_nonpos (sub_nonpos.mpr hle)] at hnear
  linarith [(abs_le.mp hnear).1]

theorem abs_lt_overflow (h : |q| ≤ 2 ^ 52) : |q| < overflow := by
  refine lt_overflow (h.trans_lt ?_)
  rw [← zpow_natCast]
  exact zpow_lt_zpow_right₀ one_lt_two (by omega)

theorem natAbs_floor_le (h : |q| ≤ 2 ^ 52) : q.floor.natAbs ≤ 2 ^ 52 := by
  obtain ⟨hlow, hhigh⟩ := abs_le.mp h
  have hbelow : -2 ^ 52 ≤ q.floor := Rat.le_floor_iff.mpr (by push_cast; exact hlow)
  have habove : q.floor ≤ 2 ^ 52 := by exact_mod_cast (Rat.floor_le q).trans hhigh
  omega

theorem floor_le_ofRat (h : |q| ≤ 2 ^ 52) (s : Bool) : (q.floor : Rat) ≤ (ofRat s q).toRat := by
  have hfloor := natAbs_floor_le h
  have hint := isInt_ofInt (n := q.floor) (by omega)
  rw [← hint.toRat]
  refine toRat_le_ofRat hint.isFinite (abs_lt_overflow h) ?_ s
  rw [hint.toRat]
  exact Rat.floor_le q

theorem ofRat_le_floor_add_one (h : |q| ≤ 2 ^ 52) (s : Bool) :
    (ofRat s q).toRat ≤ q.floor + 1 := by
  have hfloor := natAbs_floor_le h
  have hint := isInt_ofInt (n := q.floor + 1) (by omega)
  have hnext := hint.toRat
  push_cast at hnext
  rw [← hnext]
  refine ofRat_le_toRat hint.isFinite (abs_lt_overflow h) ?_ s
  rw [hint.toRat]
  exact (Rat.lt_floor_add_one q).le

/-- A number that is not rounded to the integer above keeps its floor. -/
theorem floor_ofRat (h : |q| ≤ 2 ^ 52) {s : Bool} (hlt : (ofRat s q).toRat < q.floor + 1) :
    (ofRat s q).toRat.floor = q.floor :=
  rat_floor_eq_iff.mpr ⟨floor_le_ofRat h s, hlt⟩

/-! ### Steps -/

/-- A double of moderate size counts fewer than `2 ^ 53` steps of a grid that has the integers. -/
theorem exists_steps_toRat (hx : x.isFinite = true) (hbound : |x.toRat| ≤ 2 ^ 52) :
    ∃ n e : Int, -1074 ≤ e ∧ e ≤ 0 ∧ x.toRat = n * 2 ^ e ∧ |x.toRat| < 2 ^ (e + 53) := by
  cases x with
  | nan => cases hx
  | infinite s => cases hx
  | finite s m e hm =>
    have hdigits : (m : Rat) < 2 ^ (53 : Int) := by exact_mod_cast hm.1
    have hstep : (0 : Rat) < 2 ^ e := zpow_pos two_pos e
    rw [abs_toRat_finite] at hbound ⊢
    refine ⟨(if s then -1 else 1) * m, e, hm.2.1, ?_, ?_, ?_⟩
    · -- No double on a coarser grid than that of the integers is so small.
      refine le_of_not_gt fun hpos => absurd hbound (not_le.mpr ?_)
      have hnormal : (2 : Rat) ^ 52 ≤ m := by exact_mod_cast hm.2.2.2.resolve_right (by omega)
      calc (2 : Rat) ^ 52 < 2 ^ 52 * 2 ^ e :=
            lt_mul_of_one_lt_right (by positivity) (one_lt_zpow₀ one_lt_two hpos)
        _ ≤ m * 2 ^ e := mul_le_mul_of_nonneg_right hnormal hstep.le
    · rw [toRat]
      push_cast
      ring
    · rw [zpow_add₀ two_ne_zero, mul_comm]
      exact mul_lt_mul_of_pos_left hdigits hstep

/-- On a grid that has the integers, the difference to an integer is a number of steps. -/
theorem exists_steps_sub {e : Int} (he : e ≤ 0) (n k : Int) :
    ∃ j : Int, (n : Rat) * 2 ^ e - k = j * 2 ^ e := by
  obtain ⟨i, hi⟩ := exists_finer_steps he k
  rw [zpow_zero, mul_one] at hi
  refine ⟨n - i, ?_⟩
  rw [hi]
  push_cast
  ring

/-- A number on a grid that leaves 53 bits for it is kept. -/
theorem toRat_ofRat_of_fits {n e : Int} (he : -1074 ≤ e) (hq : q = n * 2 ^ e)
    (hlt : |q| < 2 ^ (e + 53)) (h : |q| < overflow) (s : Bool) : (ofRat s q).toRat = q := by
  by_cases hzero : q = 0
  · rw [hzero, ofRat_zero, toRat_zero]
  obtain ⟨k, hk⟩ := exists_finer_steps (gridExponent_le (abs_pos.mpr hzero) he hlt) |n|
  refine toRat_ofRat_of_steps (n := k) ?_ h s
  rw [← hk, hq, abs_mul, Int.cast_abs, abs_of_pos (zpow_pos two_pos e : (0 : Rat) < 2 ^ e)]

/-! ### Quotients -/

section

variable (hx : x.isFinite = true) (hbound : |x.toRat| ≤ 2 ^ 52) {w : Int} (hw : 0 < w)

include hbound hw

theorem abs_div_le : |x.toRat / w| ≤ 2 ^ 52 := by
  have hw' : (0 : Rat) < w := by exact_mod_cast hw
  rw [abs_div, abs_of_pos hw']
  exact (div_le_self (abs_nonneg _) (by exact_mod_cast hw)).trans hbound

include hx

/-- A quotient in the normal range is not rounded to an integer above it: a double is at least one
    of its steps below an integer multiple of the size, and the rounding misses by less than that
    part of the step. -/
theorem ofRat_div_lt (hnormal : 2 ^ (-1022 : Int) ≤ |x.toRat / w|) {k : Int}
    (hlt : x.toRat / w < k) (s : Bool) : (ofRat s (x.toRat / w)).toRat < k := by
  obtain ⟨n, e, _, he, hsteps, hsize⟩ := exists_steps_toRat hx hbound
  have hw' : (0 : Rat) < w := by exact_mod_cast hw
  have hstep : (0 : Rat) < 2 ^ e := zpow_pos two_pos e
  have hgap : 2 ^ e / w ≤ k - x.toRat / w := by
    obtain ⟨j, hj⟩ := exists_steps_sub he n (k * w)
    rw [← hsteps, Int.cast_mul] at hj
    have hneg : (j : Rat) * 2 ^ e < 0 := by
      rw [← hj]
      exact sub_neg.mpr ((div_lt_iff₀ hw').mp hlt)
    have hj' : j < 0 := by exact_mod_cast neg_of_mul_neg_left hneg hstep.le
    have hj'' : (j : Rat) ≤ -1 := by exact_mod_cast (by omega : j ≤ -1)
    rw [le_sub_iff_add_le, ← add_div, div_le_iff₀ hw']
    linarith [mul_le_mul_of_nonneg_right hj'' hstep.le]
  have herror : 2 ^ gridExponent |x.toRat / w| / 2 < (2 : Rat) ^ e / w := by
    have hgrid := le_of_gridExponent hnormal
    rw [abs_div, abs_of_pos hw'] at hgrid ⊢
    rw [zpow_add₀ two_ne_zero, le_div_iff₀ hw'] at hgrid
    rw [zpow_add₀ two_ne_zero] at hsize
    rw [div_lt_div_iff₀ two_pos hw']
    norm_num at hgrid hsize
    linarith
  have hne : x.toRat / w ≠ 0 := abs_pos.mp ((zpow_pos two_pos _).trans_le hnormal)
  linarith [(abs_le.mp (ofRat_error hne (abs_lt_overflow (abs_div_le hbound hw)) s)).2]

end

/-- What is nearer to the least double below zero than to zero stays negative. -/
theorem ofRat_neg (hneg : q < 0) (h : |q| < overflow) (hlarge : 2 ^ (-1075 : Int) < |q|)
    (s : Bool) : (ofRat s q).toRat < 0 := by
  let least : Binary64 := finite true 1 (-1074) (by decide)
  have hleast : least.toRat = -(2 * 2 ^ (-1075 : Int)) := by
    rw [← zpow_one_add₀ two_ne_zero]
    simp [least, toRat]
  have hmost := ofRat_le_toRat (x := zero false) rfl h (by rw [toRat_zero]; exact hneg.le) s
  rw [toRat_zero] at hmost
  refine lt_of_le_of_ne hmost fun hzero => ?_
  have hnear := ofRat_nearest h s (x := least) rfl
  rw [hzero, zero_sub, abs_neg, hleast] at hnear
  rw [abs_of_neg hneg] at hnear hlarge
  rcases le_or_gt q (-(2 * 2 ^ (-1075 : Int))) with hle | hlt
  · rw [abs_of_nonneg (by linarith)] at hnear
    linarith [zpow_pos (two_pos : (0 : Rat) < 2) (-1075)]
  · rw [abs_of_neg (by linarith)] at hnear
    linarith

section

variable (hx : x.isFinite = true) (hbound : |x.toRat| ≤ 2 ^ 52) {w : Int} (hw : 0 < w)

include hx hbound hw

/-- Rounding keeps the floor of a quotient, unless the quotient is negative and rounded to zero. -/
theorem floor_ofRat_div (hstays : 0 ≤ x.toRat ∨ 2 ^ (-1075 : Int) < |x.toRat / w|) (s : Bool) :
    (ofRat s (x.toRat / w)).toRat.floor = (x.toRat / w).floor := by
  have hw' : (0 : Rat) < w := by exact_mod_cast hw
  have hsmall := abs_div_le hbound hw
  refine floor_ofRat hsmall ?_
  rcases le_or_gt (2 ^ (-1022 : Int)) |x.toRat / w| with hnormal | htiny
  · have hnext := ofRat_div_lt hx hbound hw hnormal (Rat.lt_floor_add_one _) s
    push_cast at hnext
    exact hnext
  have hhalf : |x.toRat / w| < 2 ^ (-1 : Int) :=
    htiny.trans (zpow_lt_zpow_right₀ one_lt_two (by omega))
  rw [zpow_neg_one] at hhalf
  rcases le_or_gt 0 (x.toRat / w) with hnonneg | hneg
  · rw [abs_of_nonneg hnonneg] at hhalf
    have hfloor : (x.toRat / w).floor = 0 :=
      rat_floor_eq_iff.mpr ⟨hnonneg, by push_cast; linarith⟩
    have hdouble := abs_ofRat_le (abs_lt_overflow hsmall) s
    rw [abs_of_nonneg hnonneg] at hdouble
    rw [hfloor, Int.cast_zero]
    linarith [le_abs_self (ofRat s (x.toRat / w)).toRat]
  · rw [abs_of_neg hneg] at hhalf
    have hfloor : (x.toRat / w).floor = -1 :=
      rat_floor_eq_iff.mpr ⟨by push_cast; linarith, by push_cast; linarith⟩
    have hlarge := hstays.resolve_left fun h => absurd (div_nonneg h hw'.le) (not_le.mpr hneg)
    rw [hfloor, Int.cast_neg, Int.cast_one, neg_add_cancel]
    exact ofRat_neg hneg (abs_lt_overflow hsmall) hlarge s

variable {y : Binary64} (hy : y.IsInt w)

include hy

theorem floor?_div_eq : (x / y).floor? =
    some (ofRat (x.isNegative != y.isNegative) (x.toRat / w)).toRat.floor := by
  have hy' : y.toRat ≠ 0 := by
    rw [hy.toRat]
    exact_mod_cast hw.ne'
  rw [div_eq_ofRat hx hy.isFinite hy', hy.toRat]
  exact floor?_eq_some (isFinite_ofRat (abs_lt_overflow (abs_div_le hbound hw)) _)

theorem floor?_div (hstays : 0 ≤ x.toRat ∨ 2 ^ (-1075 : Int) < |x.toRat / w|) :
    (x / y).floor? = some (x.toRat / w).floor := by
  rw [floor?_div_eq hx hbound hw hy, floor_ofRat_div hx hbound hw hstays]

theorem floor?_div_of_tiny (hne : x.toRat / w ≠ 0) (htiny : |x.toRat / w| ≤ 2 ^ (-1075 : Int)) :
    (x / y).floor? = some 0 := by
  rw [floor?_div_eq hx hbound hw hy, ofRat_tiny hne htiny, toRat_zero]
  rfl

end

theorem IsInt.floor?_div {x y : Binary64} {n w : Int} (hx : x.IsInt n) (hy : y.IsInt w)
    (hn : n.natAbs ≤ 2 ^ 51) (hw : 0 < w) (hw' : w < 2 ^ 31) :
    (x / y).floor? = some (n / w) := by
  have hbound : |x.toRat| ≤ 2 ^ 52 := by
    rw [hx.toRat, abs_intCast]
    exact_mod_cast hn.trans (by norm_num)
  obtain ⟨k, rfl⟩ := Int.eq_ofNat_of_zero_le hw.le
  have hfloor : ((n : Rat) / (k : Int)).floor = n / k := Rat.floor_intCast_div_natCast n k
  rw [Binary64.floor?_div hx.isFinite hbound hw hy, hx.toRat, hfloor]
  -- The quotient of a negative integer by a size is far from zero.
  rw [hx.toRat]
  refine (le_or_gt 0 (n : Rat)).imp_right fun hneg => ?_
  have hw'' : (0 : Rat) < (k : Int) := by exact_mod_cast hw
  have hone : (1 : Rat) ≤ |(n : Rat)| := by
    exact_mod_cast Int.one_le_abs (by rintro rfl; exact lt_irrefl _ hneg)
  have hsize : ((k : Int) : Rat) < 2 ^ (31 : Int) := by exact_mod_cast hw'
  rw [abs_div, abs_of_pos hw'', lt_div_iff₀ hw'']
  calc (2 : Rat) ^ (-1075 : Int) * (k : Int) < 2 ^ (-1075 : Int) * 2 ^ (31 : Int) :=
        mul_lt_mul_of_pos_left hsize (zpow_pos two_pos _)
    _ ≤ 2 ^ (0 : Int) := by
        rw [← zpow_add₀ two_ne_zero]
        exact zpow_le_zpow_right₀ one_le_two (by omega)
    _ ≤ |(n : Rat)| := by rwa [zpow_zero]

/-! ### Differences -/

/-- The difference to an integer is exact when it is no larger than the double. -/
theorem toRat_ofRat_sub (hx : x.isFinite = true) (hbound : |x.toRat| ≤ 2 ^ 52) {k : Int}
    (hle : |x.toRat - k| ≤ |x.toRat|) (s : Bool) : (ofRat s (x.toRat - k)).toRat = x.toRat - k := by
  obtain ⟨n, e, hleast, he, hsteps, hsize⟩ := exists_steps_toRat hx hbound
  obtain ⟨j, hj⟩ := exists_steps_sub he n k
  rw [← hsteps] at hj
  exact toRat_ofRat_of_fits hleast hj (hle.trans_lt hsize) (abs_lt_overflow (hle.trans hbound)) s

/-- A positive number is rounded to the integer above when that is half a step of the grid away at
    most. -/
theorem ofRat_eq_floor_add_one_iff (hpos : 0 < q) (hlt : q < 2 ^ 52) (s : Bool) :
    (ofRat s q).toRat = q.floor + 1 ↔ q.floor + 1 - q ≤ 2 ^ gridExponent q / 2 := by
  have habs : |q| = q := abs_of_pos hpos
  have hsmall : |q| ≤ 2 ^ 52 := habs.le.trans hlt.le
  have hstep : (0 : Rat) < 2 ^ gridExponent q := zpow_pos two_pos _
  constructor
  · intro h
    have herror := ofRat_error hpos.ne' (abs_lt_overflow hsmall) s
    rw [h, habs] at herror
    exact (le_abs_self _).trans herror
  · intro h
    have hgrid : gridExponent q + 1 ≤ 0 := by
      have hfine := gridExponent_le hpos (by omega : -1074 ≤ (-1 : Int)) (by exact_mod_cast hlt)
      omega
    -- The integer is an even number of steps, so it is reached from half a step away too.
    obtain ⟨k, hk⟩ := exists_finer_steps hgrid (q.floor + 1)
    rw [zpow_zero, mul_one, zpow_add_one₀ two_ne_zero] at hk
    push_cast at hk
    have hround : roundHalfEven (q / 2 ^ gridExponent q) = 2 * k := by
      refine roundHalfEven_eq_of_even (by omega) ?_
      have hgap : ((2 * k : Int) : Rat) - q / 2 ^ gridExponent q =
          (q.floor + 1 - q) / 2 ^ gridExponent q := by
        rw [hk]
        push_cast
        field_simp
      have hnext : q < q.floor + 1 := by exact_mod_cast Rat.lt_floor_add_one q
      rw [hgap, abs_of_nonneg (div_nonneg (sub_nonneg.mpr hnext.le) hstep.le), div_le_iff₀ hstep]
      linarith
    rw [toRat_ofRat hpos.ne' (abs_lt_overflow hsmall), habs, hround, if_neg hpos.not_gt, hk]
    push_cast
    ring

end Terrain.Binary64
