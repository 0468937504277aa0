import Terrain.Decimal.Shortest
import Terrain.Proofs.Binary64.Whole
import Terrain.Proofs.Decimal.Notation

/-! ## Shortest decimals read back

Whatever number of digits a double is written with, the decimal reads back as that double: the
search keeps no other, and what is written in full has the same value. A whole double never gets
digits behind the point, since the search ends with all the digits before it. -/

namespace Terrain

/-! ### The order of magnitude -/

theorem lt_ten_pow_length (n : Nat) : n < 10 ^ (Nat.toDigits 10 n).length :=
  (Nat.length_toDigits_le_iff (by decide) (List.length_pos_iff.mpr Nat.toDigits_ne_nil)).mp le_rfl

theorem ten_pow_length_le {n : Nat} (hn : n ≠ 0) :
    10 ^ (Nat.toDigits 10 n).length ≤ 10 * n := by
  by_cases hlength : (Nat.toDigits 10 n).length ≤ 1
  · have hle := Nat.pow_le_pow_right (n := 10) (by decide) hlength
    omega
  · have hpos : 0 < (Nat.toDigits 10 n).length - 1 := by omega
    have hle : 10 ^ ((Nat.toDigits 10 n).length - 1) ≤ n := by
      refine not_lt.mp fun hlt => ?_
      have := (Nat.length_toDigits_le_iff (by decide) hpos).mpr hlt
      omega
    calc 10 ^ (Nat.toDigits 10 n).length = 10 * 10 ^ ((Nat.toDigits 10 n).length - 1) := by
          rw [← Nat.pow_succ']
          congr 1
          omega
      _ ≤ 10 * n := Nat.mul_le_mul_left 10 hle

theorem floorLog10_spec {q : Rat} (hq : 0 < q) :
    10 ^ floorLog10 q ≤ q ∧ q < 10 ^ (floorLog10 q + 1) := by
  have hnum : 0 < q.num := Rat.num_pos.mpr hq
  have hbracket : ∀ {n : Nat}, n ≠ 0 →
      (10 : Rat) ^ (((Nat.toDigits 10 n).length : Int) - 1) ≤ n ∧
        (n : Rat) < 10 ^ (((Nat.toDigits 10 n).length : Int) - 1 + 1) := by
    intro n hn
    constructor
    · rw [zpow_sub_one₀ (by norm_num), mul_inv_le_iff₀ (by norm_num), mul_comm]
      exact_mod_cast ten_pow_length_le hn
    · rw [sub_add_cancel]
      exact_mod_cast lt_ten_pow_length n
  obtain ⟨hlow, hhigh⟩ :=
    between_powers (by norm_num) hq (hbracket (by omega)) (hbracket q.den_ne_zero)
  rw [sub_sub_sub_cancel_right] at hlow hhigh
  unfold floorLog10
  dsimp only
  split
  · rename_i h
    rw [sub_add_cancel]
    exact ⟨hlow, h⟩
  · rename_i h
    exact ⟨not_lt.mp h, hhigh⟩

namespace Binary64

/-! ### The two neighbours -/

variable {x : Binary64} {n : Nat} {d : Decimal}

/-- One of the two neighbours is kept, and it reads back. -/
theorem decimalOfLength?_eq_some (h : x.decimalOfLength? n = some d) :
    (d = (decimalNeighbors x.isNegative x.toRat.abs n).1 ∨
        d = (decimalNeighbors x.isNegative x.toRat.abs n).2) ∧
      d.toBinary64 = x := by
  unfold decimalOfLength? at h
  dsimp only at h
  split at h
  · rename_i hbelow habove
    obtain rfl := Option.some.inj h
    split
    · exact ⟨.inl rfl, of_decide_eq_true hbelow⟩
    · exact ⟨.inr rfl, of_decide_eq_true habove⟩
  · rename_i hbelow _
    obtain rfl := Option.some.inj h
    exact ⟨.inl rfl, of_decide_eq_true hbelow⟩
  · rename_i _ habove
    obtain rfl := Option.some.inj h
    exact ⟨.inr rfl, of_decide_eq_true habove⟩
  · cases h

/-- A neighbour among the decimals of `n` digits has `n - 1` digits behind the first one at most. -/
theorem le_exponent_of_decimalOfLength? (h : x.decimalOfLength? n = some d) :
    floorLog10 x.toRat.abs - (n - 1 : Nat) ≤ d.exponent := by
  rcases (decimalOfLength?_eq_some h).1 with rfl | rfl
  · exact le_rfl
  · unfold decimalNeighbors
    dsimp only
    split
    · exact le_add_of_nonneg_right (Int.natCast_nonneg n)
    · exact le_rfl

/-- A decimal with the sign and the value of a double reads back as it. -/
theorem toBinary64_eq_self (hx : x.isFinite = true) (hnegative : d.negative = x.isNegative)
    (hvalue : d.toRat = x.toRat) : d.toBinary64 = x := by
  rw [Decimal.toBinary64_eq, hnegative, hvalue, ofRat_toRat hx]

/-- With all the digits of a whole number the neighbour below is the number. -/
theorem decimalOfLength?_whole (hx : x.isFinite = true) (hne : x.toRat ≠ 0)
    {k : Nat} (hk : |x.toRat| = k) (hn : floorLog10 x.toRat.abs = (n - 1 : Nat)) :
    x.decimalOfLength? n ≠ none := by
  have hvalue : (Decimal.mk x.isNegative k 0).toRat = x.toRat := by
    rw [Decimal.toRat, zpow_zero, mul_one, ← hk, isNegative_eq hne]
    rcases lt_or_ge x.toRat 0 with hneg | hnonneg
    · rw [if_pos (decide_eq_true hneg), abs_of_neg hneg, neg_mul_neg, one_mul]
    · rw [if_neg (by simpa using hnonneg), abs_of_nonneg hnonneg, one_mul]
  have hbelow : (decimalNeighbors x.isNegative x.toRat.abs n).1.toBinary64 = x := by
    unfold decimalNeighbors
    dsimp only
    rw [hn, sub_self, zpow_zero, div_one, rat_abs_eq, hk, ← Int.cast_natCast k, Rat.floor_intCast,
      Int.toNat_natCast]
    exact toBinary64_eq_self hx rfl hvalue
  unfold decimalOfLength?
  dsimp only
  rw [decide_eq_true hbelow]
  split <;> simp_all

/-! ### The search -/

theorem toRat_exactDecimal (negative : Bool) {m : Nat} {e : Int} (h : Canonical m e) :
    (exactDecimal negative m e).toRat = (finite negative m e h).toRat := by
  unfold exactDecimal
  split
  · rename_i he
    rw [Decimal.toRat, toRat, zpow_zero, mul_one, Nat.cast_mul, Nat.cast_pow, Nat.cast_ofNat,
      ← zpow_natCast, Int.toNat_of_nonneg he]
  · rename_i he
    have hten : (5 : Rat) ^ (-e) * 10 ^ e = 2 ^ e := by
      rw [zpow_neg, show (10 : Rat) = 5 * 2 by norm_num, mul_zpow,
        inv_mul_cancel_left₀ (zpow_ne_zero e (by norm_num))]
    rw [Decimal.toRat, toRat, Nat.cast_mul, Nat.cast_pow, Nat.cast_ofNat, ← zpow_natCast,
      Int.toNat_of_nonneg (by omega), mul_assoc, hten]

/-- The shortest decimal of a double reads back as the double. -/
theorem toBinary64_shortest (negative : Bool) {m : Nat} {e : Int} (h : Canonical m e) :
    (shortest negative m e h).toBinary64 = .finite negative m e h := by
  unfold shortest
  split
  · rename_i hzero
    subst hzero
    exact toBinary64_eq_self rfl rfl (by simp [Decimal.toRat, toRat])
  · cases hfound : (List.range' 1 17).findSome? (decimalOfLength? (.finite negative m e h)) with
    | none =>
      refine toBinary64_eq_self rfl ?_ (toRat_exactDecimal negative h)
      unfold exactDecimal
      split <;> rfl
    | some d =>
      obtain ⟨n, _, hn⟩ := List.exists_of_findSome?_eq_some hfound
      exact (decimalOfLength?_eq_some hn).2

/-- The search takes the first number of digits that will do. -/
theorem le_of_findSome?_range' {α : Type} {f : Nat → Option α} {a : α} {k : Nat}
    (h : (List.range' 1 k).findSome? f = some a) :
    ∃ n, f n = some a ∧ ∀ i, 1 ≤ i → f i ≠ none → n ≤ i := by
  obtain ⟨before, n, after, hrange, hn, hbefore⟩ := List.findSome?_eq_some_iff.mp h
  refine ⟨n, hn, fun i hi hfound => not_lt.mp fun hlt => ?_⟩
  have hsorted : (before ++ n :: after).Pairwise (· < ·) := hrange ▸ List.pairwise_lt_range'
  have hn_mem : n ∈ List.range' 1 k := hrange ▸ List.mem_append_right _ List.mem_cons_self
  have hi_mem : i ∈ List.range' 1 k := by
    rw [List.mem_range'_1] at hn_mem ⊢
    omega
  rw [hrange, List.mem_append, List.mem_cons] at hi_mem
  rcases hi_mem with hi_mem | rfl | hi_mem
  · exact hfound (hbefore i hi_mem)
  · exact lt_irrefl _ hlt
  · have := List.rel_of_pairwise_cons (List.pairwise_append.mp hsorted).2.1 hi_mem
    omega

theorem exists_nat_of_isWhole (hx : x.isWhole = true) : ∃ k : Nat, |x.toRat| = k := by
  have hden : x.toRat.den = 1 := by
    cases x with
    | nan => cases hx
    | infinite s => cases hx
    | finite s m e h => exact of_decide_eq_true hx
  refine ⟨x.toRat.num.natAbs, ?_⟩
  rw [← abs_intCast, Rat.coe_int_num_of_den_eq_one hden]

theorem exists_floorLog10_natCast {k : Nat} (hk : 1 ≤ k) :
    ∃ n : Nat, floorLog10 (k : Rat) = n := by
  have hpos : (0 : Rat) < k := by exact_mod_cast hk
  refine Int.eq_ofNat_of_zero_le (not_lt.mp fun hneg => ?_)
  have hone : (k : Rat) < 1 :=
    (floorLog10_spec hpos).2.trans_le (zpow_le_one_of_nonpos₀ (by norm_num) (by omega))
  exact absurd hk (not_le.mpr (by exact_mod_cast hone))

/-- A whole double that is not less than every significand is a number of whole steps. -/
theorem exponent_exactDecimal (negative : Bool) {m : Nat} {e : Int} (h : Canonical m e) {k : Nat}
    (hk : |(finite negative m e h).toRat| = k) (hlarge : 2 ^ 53 ≤ k) :
    (exactDecimal negative m e).exponent = 0 := by
  unfold exactDecimal
  split
  · rfl
  · rename_i he
    have hsmall : (k : Rat) ≤ m := by
      rw [← hk, abs_toRat_finite]
      exact mul_le_of_le_one_right (Nat.cast_nonneg m)
        (zpow_le_one_of_nonpos₀ one_le_two (by omega))
    have hsmall' : k ≤ m := by exact_mod_cast hsmall
    have := h.1
    omega

/-- The shortest decimal of a whole double has no digits behind the point. -/
theorem exponent_shortest (negative : Bool) {m : Nat} {e : Int} (h : Canonical m e)
    (hwhole : (finite negative m e h).isWhole = true) : 0 ≤ (shortest negative m e h).exponent := by
  unfold shortest
  split
  · exact le_rfl
  rename_i hzero
  obtain ⟨k, hk⟩ := exists_nat_of_isWhole hwhole
  have hm : 0 < m := Nat.pos_of_ne_zero hzero
  have hpos : 0 < |(finite negative m e h).toRat| := by
    rw [abs_toRat_finite]
    positivity
  have hk_pos : 1 ≤ k := by
    rw [hk] at hpos
    exact_mod_cast hpos
  obtain ⟨n, hn⟩ := exists_floorLog10_natCast hk_pos
  have hn_digits : (finite negative m e h).decimalOfLength? (n + 1) ≠ none := by
    refine decimalOfLength?_whole rfl (abs_pos.mp hpos) hk ?_
    rw [rat_abs_eq, hk, hn, Nat.add_sub_cancel]
  cases hfound : (List.range' 1 17).findSome? (decimalOfLength? (.finite negative m e h)) with
  | none =>
    have hlong : 17 ≤ n := by
      refine not_lt.mp fun hlt => hn_digits (List.findSome?_eq_none_iff.mp hfound _ ?_)
      rw [List.mem_range'_1]
      omega
    have hlow : 10 ^ n ≤ k := by
      have hspec := (floorLog10_spec (hk ▸ hpos)).1
      rw [hn, zpow_natCast] at hspec
      exact_mod_cast hspec
    have hlarge : 10 ^ 17 ≤ k := (Nat.pow_le_pow_right (by decide) hlong).trans hlow
    exact (exponent_exactDecimal negative h hk (by omega)).ge
  | some d =>
    obtain ⟨i, hi, hleast⟩ := le_of_findSome?_range' hfound
    have hle : i ≤ n + 1 := hleast (n + 1) (by omega) hn_digits
    have hexponent := le_exponent_of_decimalOfLength? hi
    rw [rat_abs_eq, hk, hn] at hexponent
    dsimp only [Option.getD_some]
    omega

end Binary64
end Terrain
