/-! ## 32-bit words

Which integers fit a signed or an unsigned 32-bit word. Coordinates, bounds and sizes are stored
as words; whatever is computed with them is computed in the integers and has to pass here. -/

namespace Terrain

-- Bounds are powers. Mathlib brings a power of its own, and without a preference a bound would be
-- one term in a module that imports Mathlib and another one in a module that does not.
attribute [instance (high), default_instance (high + 1)] instPowNat

/-- The signed word that stands for `n`, if `n` fits. -/
def int32? (n : Int) : Option Int32 :=
  if -2 ^ 31 ≤ n ∧ n < 2 ^ 31 then some (Int32.ofInt n) else none

/-- The unsigned word that stands for `n`, if `n` fits. -/
def uint32? (n : Int) : Option UInt32 :=
  if 0 ≤ n ∧ n < 2 ^ 32 then some (UInt32.ofNat n.toNat) else none

/-- Fitting keeps the value. -/
theorem int32?_eq_some_iff {n : Int} {w : Int32} : int32? n = some w ↔ w.toInt = n := by
  unfold int32?
  constructor
  · intro h
    split at h
    · rename_i hn
      cases h
      exact Int32.toInt_ofInt_of_le hn.1 hn.2
    · cases h
  · rintro rfl
    rw [if_pos ⟨w.le_toInt, w.toInt_lt⟩, Int32.ofInt_toInt]

/-- Fitting keeps the value. -/
theorem uint32?_eq_some_iff {n : Int} {w : UInt32} : uint32? n = some w ↔ (w.toNat : Int) = n := by
  unfold uint32?
  constructor
  · intro h
    split at h
    · rename_i hn
      cases h
      have hlt : n.toNat < 2 ^ 32 := by omega
      rw [UInt32.toNat_ofNat_of_lt' hlt]
      omega
    · cases h
  · rintro rfl
    have hlt := w.toNat_lt
    rw [if_pos ⟨by omega, by omega⟩, Int.toNat_natCast, UInt32.ofNat_toNat]

end Terrain
