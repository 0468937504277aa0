import Terrain.Proofs.Binary64.Rounding

/-! ## Whole doubles

Doubles that are integers. Up to `2 ^ 53` their sums, differences and products are exact. -/

namespace Terrain

theorem int32_natAbs_le (n : Int32) : n.toInt.natAbs ≤ 2 ^ 31 := by
  have hlow := n.le_toInt
  have hhigh := n.toInt_lt
  omega

namespace Binary64

/-- The double is the integer `n`. -/
structure IsInt (x : Binary64) (n : Int) : Prop where
  isFinite : x.isFinite = true
  toRat : x.toRat = n

/-- The integer that a whole double is. -/
def toInt (x : Binary64) : Int := x.toRat.floor

theorem IsInt.toInt {x : Binary64} {n : Int} (h : x.IsInt n) : x.toInt = n := by
  rw [Binary64.toInt, h.toRat, Rat.floor_intCast]

theorem abs_intCast (n : Int) : |(n : Rat)| = n.natAbs := by
  rw [Nat.cast_natAbs, Int.cast_abs]

theorem abs_intCast_lt {n : Int} (h : n.natAbs ≤ 2 ^ 53) : |(n : Rat)| < overflow := by
  have hn : (n.natAbs : Rat) ≤ 2 ^ (53 : Int) := by exact_mod_cast h
  rw [abs_intCast]
  exact lt_overflow (hn.trans_lt (zpow_lt_zpow_right₀ one_lt_two (by omega)))

/-- An integer of up to 53 bits is on its grid. -/
theorem exists_steps {n : Int} (h : n.natAbs ≤ 2 ^ 53) :
    ∃ k : Int, |(n : Rat)| = k * 2 ^ gridExponent |(n : Rat)| := by
  by_cases hn : n = 0
  · exact ⟨0, by simp [hn]⟩
  rw [abs_intCast]
  have hone : (1 : Rat) ≤ n.natAbs := by exact_mod_cast Int.natAbs_pos.mpr hn
  have hmost : gridExponent (n.natAbs : Rat) ≤ 1 := by
    refine gridExponent_le (zero_lt_one.trans_le hone) (by omega) ?_
    exact_mod_cast h.trans_lt (by norm_num : 2 ^ 53 < 2 ^ (1 + 53))
  have hleast : (2 : Rat) ^ (gridExponent (n.natAbs : Rat) + 52) ≤ n.natAbs :=
    le_of_gridExponent ((zpow_le_one_of_nonpos₀ one_le_two (by omega)).trans hone)
  generalize gridExponent (n.natAbs : Rat) = g at *
  by_cases hg : g ≤ 0
  · obtain ⟨k, hk⟩ := exists_finer_steps hg n.natAbs
    rw [zpow_zero, mul_one, Int.cast_natCast] at hk
    exact ⟨k, hk⟩
  · -- Here the integer has to be the power of two itself.
    obtain rfl : g = 1 := by omega
    have hpower : 2 ^ 53 ≤ n.natAbs := by exact_mod_cast hleast
    rw [le_antisymm h hpower]
    exact ⟨2 ^ 52, by norm_num⟩

theorem isInt_ofRat {n : Int} (h : n.natAbs ≤ 2 ^ 53) (s : Bool) : (ofRat s n).IsInt n := by
  obtain ⟨k, hk⟩ := exists_steps h
  exact ⟨isFinite_ofRat (abs_intCast_lt h) s, toRat_ofRat_of_steps hk (abs_intCast_lt h) s⟩

theorem isInt_ofInt {n : Int} (h : n.natAbs ≤ 2 ^ 53) : (ofInt n).IsInt n := isInt_ofRat h false

/-! ### Exact operations -/

namespace IsInt

variable {x y : Binary64} {m n : Int}

theorem neg (hx : x.IsInt n) : (-x).IsInt (-n) := by
  constructor
  · rw [isFinite_neg, hx.isFinite]
  · rw [toRat_neg, hx.toRat, Int.cast_neg]

theorem add (hx : x.IsInt m) (hy : y.IsInt n) (h : (m + n).natAbs ≤ 2 ^ 53) :
    (x + y).IsInt (m + n) := by
  rw [add_eq_ofRat hx.isFinite hy.isFinite, hx.toRat, hy.toRat, ← Int.cast_add]
  exact isInt_ofRat h _

theorem sub (hx : x.IsInt m) (hy : y.IsInt n) (h : (m - n).natAbs ≤ 2 ^ 53) :
    (x - y).IsInt (m - n) := by
  rw [sub_eq_add_neg, Int.sub_eq_add_neg]
  exact hx.add hy.neg h

theorem mul (hx : x.IsInt m) (hy : y.IsInt n) (h : (m * n).natAbs ≤ 2 ^ 53) :
    (x * y).IsInt (m * n) := by
  rw [mul_eq_ofRat hx.isFinite hy.isFinite, hx.toRat, hy.toRat, ← Int.cast_mul]
  exact isInt_ofRat h _

theorem truncateWithin (hx : x.IsInt n) (lo hi : Int) :
    x.truncateWithin lo hi = max lo (min hi n) := by
  have hvalue := hx.toRat
  cases x with
  | nan => cases hx.isFinite
  | infinite s => cases hx.isFinite
  | finite s m e hm =>
    unfold Binary64.truncateWithin
    dsimp only
    rw [hvalue, Rat.ceil_intCast, Rat.floor_intCast, ite_self]

theorem isNegative_eq (hx : x.IsInt n) (hn : n ≠ 0) : x.isNegative = decide (n < 0) := by
  have hne : x.toRat ≠ 0 := by
    rw [hx.toRat]
    exact_mod_cast hn
  rw [Binary64.isNegative_eq hne, hx.toRat]
  norm_cast

theorem isNegative_ofInt (hn : n.natAbs ≤ 2 ^ 53) : (ofInt n).isNegative = decide (n < 0) := by
  by_cases h : n = 0
  · subst h
    decide +kernel
  · exact (isInt_ofInt hn).isNegative_eq h

/-- A sum that is zero has a positive sign, unless both terms are negative zeros. -/
theorem ofInt_add (hm : m.natAbs ≤ 2 ^ 53) (hy : y.IsInt n) : ofInt m + y = ofInt (m + n) := by
  have hx := isInt_ofInt hm
  rw [add_eq_ofRat hx.isFinite hy.isFinite, hx.toRat, hy.toRat, ← Int.cast_add]
  by_cases hsum : m + n = 0
  · have hsigns : ((ofInt m).isNegative && y.isNegative) = false := by
      rw [isNegative_ofInt hm, Bool.and_eq_false_iff, decide_eq_false_iff_not]
      by_cases hn : n = 0
      · exact .inl (by omega)
      · rw [hy.isNegative_eq hn, decide_eq_false_iff_not]
        omega
    rw [hsigns]
    rfl
  · exact ofRat_eq_ofRat (by exact_mod_cast hsum) _ _

/-- A zero has a positive sign still when it is multiplied by a positive number. -/
theorem ofInt_mul (hm : m.natAbs ≤ 2 ^ 53) (hn : n.natAbs ≤ 2 ^ 53) (hpos : 0 < n) :
    ofInt m * ofInt n = ofInt (m * n) := by
  have hx := isInt_ofInt hm
  have hy := isInt_ofInt hn
  rw [mul_eq_ofRat hx.isFinite hy.isFinite, hx.toRat, hy.toRat, ← Int.cast_mul]
  by_cases hm' : m = 0
  · rw [isNegative_ofInt hm, isNegative_ofInt hn, decide_eq_false (by omega),
      decide_eq_false (by omega)]
    rfl
  · exact ofRat_eq_ofRat (by exact_mod_cast mul_ne_zero hm' hpos.ne') _ _

end IsInt

end Binary64
end Terrain
