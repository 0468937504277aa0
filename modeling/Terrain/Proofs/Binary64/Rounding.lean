import Mathlib.Algebra.Order.Field.Power
import Mathlib.Data.Rat.Floor
import Mathlib.Tactic.GCongr
import Mathlib.Tactic.Linarith
import Mathlib.Tactic.Positivity
import Terrain.Binary64.Basic

/-! ## How far rounding goes

What the rounding of an exact number guarantees, below the overflow threshold: the result is
finite, it misses the exact number by half a step of the grid at most, and it misses nothing when
the number is on the grid. No other double is nearer. -/

namespace Terrain

theorem rat_abs_eq (q : Rat) : q.abs = |q| := by
  unfold Rat.abs
  split
  · rename_i h
    exact (abs_of_nonneg h).symm
  · rename_i h
    exact (abs_of_neg (not_le.mp h)).symm

theorem rat_floor_eq_iff {q : Rat} {n : Int} : q.floor = n ↔ (n : Rat) ≤ q ∧ q < n + 1 := by
  show ⌊q⌋ = n ↔ _
  exact Int.floor_eq_iff

/-! ### The order of magnitude -/

/-- Numerator and denominator between neighbouring powers of a base leave two places for their
    quotient. -/
theorem between_powers {b q : Rat} (hb : 1 < b) (hq : 0 < q) {i j : Int}
    (hnum : b ^ i ≤ q.num.natAbs ∧ q.num.natAbs < b ^ (i + 1))
    (hden : b ^ j ≤ q.den ∧ q.den < b ^ (j + 1)) :
    b ^ (i - j - 1) ≤ q ∧ q < b ^ (i - j + 1) := by
  have hb₀ : 0 < b := zero_lt_one.trans hb
  have hden₀ : (0 : Rat) < q.den := by exact_mod_cast q.den_pos
  have hq' : q * q.den = q.num.natAbs := by
    rw [Rat.mul_den_eq_num, ← Int.cast_natCast q.num.natAbs,
      Int.natAbs_of_nonneg (Rat.num_pos.mpr hq).le]
  constructor
  · refine le_of_mul_le_mul_right ?_ hden₀
    calc b ^ (i - j - 1) * q.den ≤ b ^ (i - j - 1) * b ^ (j + 1) := by
          gcongr
          exact hden.2.le
      _ = b ^ i := by
          rw [← zpow_add₀ hb₀.ne']
          congr 1
          omega
      _ ≤ q.num.natAbs := hnum.1
      _ = q * q.den := hq'.symm
  · refine lt_of_mul_lt_mul_right ?_ hden₀.le
    calc q * q.den = q.num.natAbs := hq'
      _ < b ^ (i + 1) := hnum.2
      _ = b ^ (i - j + 1) * b ^ j := by
          rw [← zpow_add₀ hb₀.ne']
          congr 1
          omega
      _ ≤ b ^ (i - j + 1) * q.den := by
          gcongr
          exact hden.1

theorem floorLog2_spec {q : Rat} (hq : 0 < q) :
    2 ^ floorLog2 q ≤ q ∧ q < 2 ^ (floorLog2 q + 1) := by
  have hnum : 0 < q.num := Rat.num_pos.mpr hq
  have hbracket : ∀ {n : Nat}, n ≠ 0 →
      (2 : Rat) ^ (n.log2 : Int) ≤ n ∧ (n : Rat) < 2 ^ ((n.log2 : Int) + 1) := by
    intro n hn
    exact ⟨by exact_mod_cast Nat.log2_self_le hn, by exact_mod_cast Nat.lt_log2_self⟩
  obtain ⟨hlow, hhigh⟩ :=
    between_powers one_lt_two hq (hbracket (by omega)) (hbracket q.den_ne_zero)
  unfold floorLog2
  dsimp only
  split
  · rename_i h
    rw [sub_add_cancel]
    exact ⟨hlow, h⟩
  · rename_i h
    exact ⟨not_lt.mp h, hhigh⟩

theorem floorLog2_lt_iff {q : Rat} (hq : 0 < q) {k : Int} : floorLog2 q < k ↔ q < 2 ^ k := by
  obtain ⟨hlow, hhigh⟩ := floorLog2_spec hq
  constructor
  · intro h
    exact hhigh.trans_le (zpow_le_zpow_right₀ one_le_two (by omega))
  · intro h
    exact (zpow_lt_zpow_iff_right₀ one_lt_two).mp (hlow.trans_lt h)

/-! ### The nearest integer -/

theorem roundHalfEven_error (q : Rat) : |(roundHalfEven q : Rat) - q| ≤ 1 / 2 := by
  have hlow := Rat.floor_le q
  have hhigh := Rat.lt_floor_add_one q
  push_cast at hhigh
  unfold roundHalfEven
  dsimp only
  refine abs_le.mpr ?_
  split
  · constructor <;> linarith
  · split
    · push_cast
      constructor <;> linarith
    · split
      · constructor <;> linarith
      · push_cast
        constructor <;> linarith

/-- No integer is nearer. -/
theorem roundHalfEven_nearest (q : Rat) (n : Int) : |(roundHalfEven q : Rat) - q| ≤ |n - q| := by
  have hlow := Rat.floor_le q
  have hhigh := Rat.lt_floor_add_one q
  push_cast at hhigh
  have hboth : |(roundHalfEven q : Rat) - q| ≤ q - q.floor ∧
      |(roundHalfEven q : Rat) - q| ≤ q.floor + 1 - q := by
    unfold roundHalfEven
    dsimp only
    simp only [abs_le]
    split
    · refine ⟨⟨?_, ?_⟩, ?_, ?_⟩ <;> linarith
    · split
      · push_cast
        refine ⟨⟨?_, ?_⟩, ?_, ?_⟩ <;> linarith
      · split
        · refine ⟨⟨?_, ?_⟩, ?_, ?_⟩ <;> linarith
        · push_cast
          refine ⟨⟨?_, ?_⟩, ?_, ?_⟩ <;> linarith
  rcases le_or_gt n q.floor with hn | hn
  · have hn' : (n : Rat) ≤ q.floor := by exact_mod_cast hn
    rw [abs_of_nonpos (by linarith : (n : Rat) - q ≤ 0)]
    linarith [hboth.1]
  · have hn' : (q.floor : Rat) + 1 ≤ n := by exact_mod_cast hn
    rw [abs_of_nonneg (by linarith : 0 ≤ (n : Rat) - q)]
    linarith [hboth.2]

/-- No multiple of the step is nearer. -/
theorem roundHalfEven_nearest_on_grid (q : Rat) {step : Rat} (hstep : 0 < step) (n : Int) :
    |roundHalfEven (q / step) * step - q| ≤ |n * step - q| := by
  have hscale : ∀ k : Int, |k * step - q| = |k - q / step| * step := by
    intro k
    rw [← abs_of_pos hstep, ← abs_mul, abs_of_pos hstep, sub_mul, div_mul_cancel₀ _ hstep.ne']
  rw [hscale, hscale]
  exact mul_le_mul_of_nonneg_right (roundHalfEven_nearest _ n) hstep.le

/-- Rounding to a multiple of a step misses by half a step at most. -/
theorem roundHalfEven_error_on_grid (q : Rat) {step : Rat} (hstep : 0 < step) :
    |roundHalfEven (q / step) * step - q| ≤ step / 2 := by
  calc |roundHalfEven (q / step) * step - q| = |(roundHalfEven (q / step) - q / step) * step| := by
        rw [sub_mul, div_mul_cancel₀ _ hstep.ne']
    _ = |roundHalfEven (q / step) - q / step| * step := by
        rw [abs_mul, abs_of_pos hstep]
    _ ≤ 1 / 2 * step := by
        gcongr
        exact roundHalfEven_error _
    _ = step / 2 := by ring

theorem roundHalfEven_intCast (n : Int) : roundHalfEven n = n := by
  unfold roundHalfEven
  dsimp only
  rw [Rat.floor_intCast, sub_self, if_pos (by norm_num)]

/-- A half goes to the even neighbour, on either side of it. -/
theorem roundHalfEven_eq_of_even {q : Rat} {n : Int} (heven : n % 2 = 0) (h : |n - q| ≤ 1 / 2) :
    roundHalfEven q = n := by
  obtain ⟨hlow, hhigh⟩ := abs_le.mp h
  unfold roundHalfEven
  dsimp only
  rcases le_or_gt (n : Rat) q with hle | hlt
  · have hbelow : q.floor = n := rat_floor_eq_iff.mpr ⟨hle, by linarith⟩
    rw [hbelow, if_neg (not_lt.mpr (by linarith : q - n ≤ 1 / 2)), if_pos heven, ite_self]
  · -- Here the even integer is the one above.
    have hbelow : q.floor = n - 1 := by
      refine rat_floor_eq_iff.mpr ⟨?_, ?_⟩
      · push_cast
        linarith
      · push_cast
        linarith
    rw [hbelow, Int.cast_sub, Int.cast_one, if_neg (not_lt.mpr (by linarith)),
      if_neg (by omega : ¬(n - 1) % 2 = 0), ite_self, Int.sub_add_cancel]

/-- Rounding does not pass an integer. -/
theorem le_roundHalfEven {n : Int} {q : Rat} (h : n ≤ q) : n ≤ roundHalfEven q := by
  have herror := (abs_le.mp (roundHalfEven_error q)).1
  have hlt : (n : Rat) - 1 < roundHalfEven q := by linarith
  have hlt' : n - 1 < roundHalfEven q := by exact_mod_cast hlt
  omega

/-- Rounding does not pass an integer. -/
theorem roundHalfEven_le {n : Int} {q : Rat} (h : q ≤ n) : roundHalfEven q ≤ n := by
  have herror := (abs_le.mp (roundHalfEven_error q)).2
  have hlt : (roundHalfEven q : Rat) < n + 1 := by linarith
  have hlt' : roundHalfEven q < n + 1 := by exact_mod_cast hlt
  omega

namespace Binary64

/-! ### The grid -/

theorem le_gridExponent (q : Rat) : -1074 ≤ gridExponent q := by
  unfold gridExponent
  split <;> omega

/-- On its grid a positive number counts fewer than `2 ^ 53` steps. -/
theorem lt_of_gridExponent {q : Rat} (hq : 0 < q) : q < 2 ^ (gridExponent q + 53) := by
  refine (floorLog2_lt_iff hq).mp ?_
  unfold gridExponent
  rw [if_neg hq.ne']
  omega

/-- From the least normal number on, it counts `2 ^ 52` steps at least. -/
theorem le_of_gridExponent {q : Rat} (h : 2 ^ (-1022 : Int) ≤ q) :
    2 ^ (gridExponent q + 52) ≤ q := by
  have hq : 0 < q := (by positivity : (0 : Rat) < 2 ^ (-1022 : Int)).trans_le h
  have hlog : -1022 ≤ floorLog2 q := by
    refine le_of_not_gt fun hlt => ?_
    exact absurd ((floorLog2_lt_iff hq).mp hlt) (not_lt.mpr h)
  unfold gridExponent
  rw [if_neg hq.ne', max_eq_right (by omega), sub_add_cancel]
  exact (floorLog2_spec hq).1

/-- So it does on every grid but the finest one. -/
theorem le_of_lt_gridExponent {q : Rat} (hq : 0 < q) (h : -1074 < gridExponent q) :
    2 ^ (gridExponent q + 52) ≤ q := by
  unfold gridExponent at h ⊢
  rw [if_neg hq.ne'] at h ⊢
  rw [max_eq_right (by omega), sub_add_cancel]
  exact (floorLog2_spec hq).1

theorem gridExponent_le {q : Rat} (hq : 0 < q) {k : Int} (hk : -1074 ≤ k) (h : q < 2 ^ (k + 53)) :
    gridExponent q ≤ k := by
  have hlog := (floorLog2_lt_iff hq).mpr h
  unfold gridExponent
  rw [if_neg hq.ne']
  omega

/-! ### The rounded number -/

/-- The least magnitude that is rounded to an infinity: half a step past the largest double. -/
def overflow : Rat := 2 ^ (1024 : Int) - 2 ^ (970 : Int)

theorem lt_overflow {q : Rat} (h : q < 2 ^ (1023 : Int)) : q < overflow := by
  have hdouble : (2 : Rat) ^ (1024 : Int) = 2 * 2 ^ (1023 : Int) := zpow_one_add₀ two_ne_zero 1023
  calc q < 2 ^ (1023 : Int) := h
    _ = 2 ^ (1024 : Int) - 2 ^ (1023 : Int) := by
        rw [hdouble, two_mul, add_sub_cancel_right]
    _ < overflow := sub_lt_sub_left (zpow_lt_zpow_right₀ one_lt_two (by omega)) _

theorem overflow_lt : overflow < 2 ^ (1024 : Int) := by
  unfold overflow
  rw [sub_lt_self_iff]
  positivity

theorem ofRat_zero (s : Bool) : ofRat s 0 = zero s := by
  cases s <;> decide +kernel

theorem toRat_zero (s : Bool) : (zero s).toRat = 0 := by
  simp [zero, toRat]

/-- The flag is the sign of an exact zero and of nothing else. -/
theorem ofRat_eq_ofRat {q : Rat} (hq : q ≠ 0) (s t : Bool) : ofRat s q = ofRat t q := by
  unfold ofRat
  rw [if_neg hq, if_neg hq]

/-! The number of steps that is stored for a positive number. -/

/-- A number of coarse steps is a number of finer ones. -/
theorem exists_finer_steps {g e : Int} (h : g ≤ e) (n : Int) :
    ∃ k : Int, (n : Rat) * 2 ^ e = k * 2 ^ g := by
  refine ⟨n * 2 ^ (e - g).toNat, ?_⟩
  push_cast
  rw [mul_assoc, ← zpow_natCast, Int.toNat_of_nonneg (by omega), ← zpow_add₀ two_ne_zero,
    sub_add_cancel]

theorem two_pow_mul_zpow (k : Nat) (g : Int) :
    ((2 ^ k : Int) : Rat) * 2 ^ g = 2 ^ (g + k) := by
  rw [zpow_add₀ two_ne_zero, mul_comm, zpow_natCast]
  norm_cast

theorem steps_nonneg {q : Rat} (hq : 0 < q) : 0 ≤ roundHalfEven (q / 2 ^ gridExponent q) :=
  le_roundHalfEven (by push_cast; positivity)

theorem steps_le {q : Rat} (hq : 0 < q) : roundHalfEven (q / 2 ^ gridExponent q) ≤ 2 ^ 53 := by
  refine roundHalfEven_le ((div_le_iff₀ (by positivity)).mpr ?_)
  rw [two_pow_mul_zpow]
  exact (lt_of_gridExponent hq).le

theorem le_steps {q : Rat} (hq : 0 < q) :
    2 ^ 52 ≤ roundHalfEven (q / 2 ^ gridExponent q) ∨ gridExponent q = -1074 := by
  by_cases hnormal : 2 ^ (-1022 : Int) ≤ q
  · refine .inl (le_roundHalfEven ((le_div_iff₀ (by positivity)).mpr ?_))
    rw [two_pow_mul_zpow]
    exact le_of_gridExponent hnormal
  · refine .inr (le_antisymm (gridExponent_le hq (by omega) ?_) (le_gridExponent q))
    exact (not_le.mp hnormal).trans_le (zpow_le_zpow_right₀ one_le_two (by omega))

/-- On the coarsest grid nothing below the threshold is carried. -/
theorem gridExponent_lt_of_carried {q : Rat} (hq : 0 < q) (h : q < overflow)
    (hcarried : roundHalfEven (q / 2 ^ gridExponent q) = 2 ^ 53) : gridExponent q < 971 := by
  have hmost : gridExponent q ≤ 971 := gridExponent_le hq (by omega) (h.trans overflow_lt)
  refine lt_of_le_of_ne hmost fun hcoarsest => ?_
  have herror := (abs_le.mp (roundHalfEven_error_on_grid q
    (zpow_pos two_pos (gridExponent q)))).2
  have hhalf : (2 : Rat) ^ (971 : Int) / 2 = 2 ^ (970 : Int) := by
    rw [div_eq_iff two_ne_zero, mul_comm]
    exact zpow_one_add₀ two_ne_zero 970
  rw [hcarried, two_pow_mul_zpow, hcoarsest, hhalf] at herror
  exact absurd h (not_lt.mpr (sub_le_comm.mp herror))

/-- Rounding keeps the sign and stores the nearest number of steps on the grid. A carry into the
    next power of two changes the form only. -/
theorem ofRat_eq_finite {q : Rat} (hq : q ≠ 0) (h : |q| < overflow) (s : Bool) :
    ∃ m e hc, ofRat s q = .finite (decide (q < 0)) m e hc ∧
      (m : Rat) * 2 ^ e =
        roundHalfEven (|q| / 2 ^ gridExponent |q|) * 2 ^ gridExponent |q| := by
  have hpos : 0 < |q| := abs_pos.mpr hq
  have hleast := le_gridExponent |q|
  have hmost : gridExponent |q| ≤ 971 := gridExponent_le hpos (by omega) (h.trans overflow_lt)
  have hnonneg := steps_nonneg hpos
  have hbelow := steps_le hpos
  have hnormal := le_steps hpos
  have hcarried := gridExponent_lt_of_carried hpos h
  unfold ofRat
  rw [rat_abs_eq, if_neg hq]
  dsimp only
  generalize roundHalfEven (|q| / 2 ^ gridExponent |q|) = n at *
  generalize gridExponent |q| = g at *
  obtain ⟨m, rfl⟩ := Int.eq_ofNat_of_zero_le hnonneg
  rw [Int.toNat_natCast]
  by_cases hcarry : m = 2 ^ 53
  · have hroom : g < 971 := hcarried (by rw [hcarry]; rfl)
    have hc : Canonical (2 ^ 52) (g + 1) := by
      unfold Canonical
      omega
    refine ⟨2 ^ 52, g + 1, hc, ?_, ?_⟩
    · simp only [hcarry, if_true, dif_pos hc]
    · rw [hcarry, zpow_add_one₀ two_ne_zero]
      push_cast
      ring
  · have hc : Canonical m g := by
      unfold Canonical
      omega
    refine ⟨m, g, hc, ?_, ?_⟩
    · simp only [hcarry, if_false, dif_pos hc]
    · push_cast
      rfl

theorem isFinite_ofRat {q : Rat} (h : |q| < overflow) (s : Bool) :
    (ofRat s q).isFinite = true := by
  by_cases hq : q = 0
  · rw [hq, ofRat_zero]
    rfl
  · obtain ⟨m, e, hc, hfinite, _⟩ := ofRat_eq_finite hq h s
    rw [hfinite]
    rfl

theorem toRat_ofRat {q : Rat} (hq : q ≠ 0) (h : |q| < overflow) (s : Bool) :
    (ofRat s q).toRat =
      (if q < 0 then -1 else 1) *
        (roundHalfEven (|q| / 2 ^ gridExponent |q|) * 2 ^ gridExponent |q|) := by
  obtain ⟨m, e, hc, hfinite, hvalue⟩ := ofRat_eq_finite hq h s
  rw [hfinite, ← hvalue]
  simp only [toRat, decide_eq_true_eq]

/-- A number on the grid is kept. -/
theorem toRat_ofRat_of_steps {q : Rat} {n : Int} (hn : |q| = n * 2 ^ gridExponent |q|)
    (h : |q| < overflow) (s : Bool) : (ofRat s q).toRat = q := by
  by_cases hq : q = 0
  · rw [hq, ofRat_zero, toRat_zero]
  · have hsteps : |q| / 2 ^ gridExponent |q| = n :=
      (div_eq_iff (by positivity)).mpr hn
    rw [toRat_ofRat hq h, hsteps, roundHalfEven_intCast, ← hn]
    split
    · rename_i hneg
      rw [abs_of_neg hneg]
      ring
    · rename_i hneg
      rw [abs_of_nonneg (not_lt.mp hneg), one_mul]

/-- Rounding misses a number by as much as the integer rounding misses its steps. -/
theorem abs_ofRat_sub {q : Rat} (hq : q ≠ 0) (h : |q| < overflow) (s : Bool) :
    |(ofRat s q).toRat - q| =
      |roundHalfEven (|q| / 2 ^ gridExponent |q|) * 2 ^ gridExponent |q| - abs q| := by
  rw [toRat_ofRat hq h]
  split
  · rename_i hneg
    rw [← abs_neg, abs_of_neg hneg]
    congr 1
    ring
  · rename_i hneg
    rw [one_mul, abs_of_nonneg (not_lt.mp hneg)]

/-- Rounding misses by half a step at most. -/
theorem ofRat_error {q : Rat} (hq : q ≠ 0) (h : |q| < overflow) (s : Bool) :
    |(ofRat s q).toRat - q| ≤ 2 ^ gridExponent |q| / 2 := by
  rw [abs_ofRat_sub hq h]
  exact roundHalfEven_error_on_grid |q| (zpow_pos two_pos (gridExponent |q|))

theorem abs_toRat_finite (s : Bool) {m : Nat} {e : Int} (hm : Canonical m e) :
    |(finite s m e hm).toRat| = m * 2 ^ e := by
  rw [toRat, abs_mul, abs_of_nonneg (by positivity : (0 : Rat) ≤ m * 2 ^ e)]
  cases s <;> simp

/-- No magnitude of a double is nearer than the stored number of steps. -/
theorem steps_nearest {q : Rat} (hq : 0 < q) {m : Nat} {e : Int} (hm : Canonical m e) :
    |roundHalfEven (q / 2 ^ gridExponent q) * 2 ^ gridExponent q - q| ≤ |m * 2 ^ e - q| := by
  have hstep : (0 : Rat) < 2 ^ gridExponent q := by positivity
  rcases le_or_gt (gridExponent q) e with hge | hlt
  · -- The double is on the grid of the number.
    obtain ⟨k, hk⟩ := exists_finer_steps hge m
    rw [← Int.cast_natCast m, hk]
    exact roundHalfEven_nearest_on_grid q hstep _
  · -- The double is on a finer grid, so it lies below the numbers that share the grid.
    have hleast := hm.2.1
    have hlow : (2 : Rat) ^ (gridExponent q + 52) ≤ q := le_of_lt_gridExponent hq (by omega)
    have hbelow : (m : Rat) * 2 ^ e ≤ 2 ^ (gridExponent q + 52) := by
      have hm' : (m : Rat) ≤ 2 ^ (53 : Int) := by exact_mod_cast hm.1.le
      calc (m : Rat) * 2 ^ e ≤ 2 ^ (53 : Int) * 2 ^ e := by
            gcongr
        _ = 2 ^ (53 + e) := (zpow_add₀ two_ne_zero _ _).symm
        _ ≤ 2 ^ (gridExponent q + 52) := zpow_le_zpow_right₀ one_le_two (by omega)
    calc |roundHalfEven (q / 2 ^ gridExponent q) * 2 ^ gridExponent q - q|
        ≤ |((2 ^ 52 : Int) : Rat) * 2 ^ gridExponent q - q| :=
          roundHalfEven_nearest_on_grid q hstep _
      _ = q - 2 ^ (gridExponent q + 52) := by
          rw [two_pow_mul_zpow, Nat.cast_ofNat, abs_of_nonpos (sub_nonpos.mpr hlow), neg_sub]
      _ ≤ q - m * 2 ^ e := sub_le_sub_left hbelow _
      _ ≤ |m * 2 ^ e - q| := by
          rw [abs_sub_comm]
          exact le_abs_self _

/-- No double is nearer. -/
theorem ofRat_nearest {q : Rat} (h : |q| < overflow) (s : Bool) {x : Binary64}
    (hx : x.isFinite = true) : |(ofRat s q).toRat - q| ≤ |x.toRat - q| := by
  by_cases hq : q = 0
  · rw [hq, ofRat_zero, toRat_zero, sub_zero, abs_zero]
    exact abs_nonneg _
  cases x with
  | nan => cases hx
  | infinite t => cases hx
  | finite t m e hm =>
    calc |(ofRat s q).toRat - q|
        = |roundHalfEven (|q| / 2 ^ gridExponent |q|) * 2 ^ gridExponent |q| - abs q| :=
          abs_ofRat_sub hq h s
      _ ≤ abs (m * 2 ^ e - |q|) := steps_nearest (abs_pos.mpr hq) hm
      _ = abs (|(Binary64.finite t m e hm).toRat| - |q|) := by
          rw [abs_toRat_finite]
      _ ≤ |(Binary64.finite t m e hm).toRat - q| := abs_abs_sub_abs_le _ _

/-- Zero is a double, so that rounding doubles a number at most. -/
theorem abs_ofRat_le {q : Rat} (h : |q| < overflow) (s : Bool) :
    |(ofRat s q).toRat| ≤ 2 * |q| := by
  have hnear := ofRat_nearest h s (x := zero false) rfl
  rw [toRat_zero, zero_sub, abs_neg] at hnear
  calc |(ofRat s q).toRat| = |(ofRat s q).toRat - q + q| := by rw [sub_add_cancel]
    _ ≤ |(ofRat s q).toRat - q| + |q| := abs_add_le _ _
    _ ≤ |q| + |q| := by gcongr
    _ = 2 * |q| := (two_mul _).symm

/-! ### The operations -/

variable {x y : Binary64}

/-- The largest double. -/
theorem abs_toRat_le (hx : x.isFinite = true) :
    |x.toRat| ≤ 2 ^ (1024 : Int) - 2 ^ (971 : Int) := by
  cases x with
  | nan => cases hx
  | infinite s => cases hx
  | finite s m e hm =>
    have hdigits : (m : Rat) ≤ 2 ^ 53 - 1 := by
      rw [le_sub_iff_add_le]
      exact_mod_cast hm.1
    have hpower : (2 : Rat) ^ (1024 : Int) = 2 ^ 53 * 2 ^ (971 : Int) := by
      rw [← zpow_natCast, ← zpow_add₀ two_ne_zero]
      congr 1
    calc |(finite s m e hm).toRat| = m * 2 ^ e := abs_toRat_finite s hm
      _ ≤ (2 ^ 53 - 1) * 2 ^ (971 : Int) :=
          mul_le_mul hdigits (zpow_le_zpow_right₀ one_le_two hm.2.2.1) (by positivity)
            (by norm_num)
      _ = 2 ^ (1024 : Int) - 2 ^ (971 : Int) := by
          rw [sub_mul, one_mul, hpower]

/-- Only a zero has a sign of its own. -/
theorem isNegative_eq (hx : x.toRat ≠ 0) : x.isNegative = decide (x.toRat < 0) := by
  cases x with
  | nan => exact absurd rfl hx
  | infinite s => exact absurd rfl hx
  | finite s m e hm =>
    have hnonneg : (0 : Rat) ≤ m * 2 ^ e := by positivity
    have hpos : (0 : Rat) < m * 2 ^ e := by
      refine lt_of_le_of_ne hnonneg fun hzero => hx ?_
      simp only [toRat, ← hzero, mul_zero]
    cases s with
    | false => simpa [isNegative, toRat] using hnonneg
    | true => simpa [isNegative, toRat] using hpos

theorem add_eq_ofRat (hx : x.isFinite = true) (hy : y.isFinite = true) :
    x + y = ofRat (x.isNegative && y.isNegative) (x.toRat + y.toRat) := by
  cases x <;> cases y <;> first | rfl | contradiction

theorem mul_eq_ofRat (hx : x.isFinite = true) (hy : y.isFinite = true) :
    x * y = ofRat (x.isNegative != y.isNegative) (x.toRat * y.toRat) := by
  cases x <;> cases y <;> first | rfl | contradiction

theorem div_eq_ofRat (hx : x.isFinite = true) (hy : y.isFinite = true) (hy' : y.toRat ≠ 0) :
    x / y = ofRat (x.isNegative != y.isNegative) (x.toRat / y.toRat) := by
  cases x with
  | nan => contradiction
  | infinite s => contradiction
  | finite s m e hm =>
    cases y with
    | nan => contradiction
    | infinite t => contradiction
    | finite t n f hn =>
      have hn' : n ≠ 0 := by
        rintro rfl
        exact hy' (by simp [toRat])
      exact if_neg hn'

theorem isFinite_neg : (-x).isFinite = x.isFinite := by
  cases x <;> rfl

theorem toRat_neg : (-x).toRat = -x.toRat := by
  cases x with
  | nan => rfl
  | infinite s => rfl
  | finite s m e hm =>
    change toRat (.finite (!s) m e hm) = _
    cases s <;> simp [toRat]

theorem sub_eq_add_neg : x - y = x + -y := rfl

theorem numEq_iff (hx : x.isFinite = true) (hy : y.isFinite = true) :
    x.numEq y = true ↔ x.toRat = y.toRat := by
  cases x <;> cases y <;> first | exact decide_eq_true_iff | contradiction

theorem floor?_eq_some (hx : x.isFinite = true) : x.floor? = some x.toRat.floor := by
  cases x <;> first | rfl | contradiction

end Binary64
end Terrain
