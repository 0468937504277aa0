import Mathlib.Data.Nat.Count
import Terrain.Proofs.GroupSet

/-! ## Group sets as finite sets

A word of 64 bits stands for the finite set of the places of its ones. What is inserted, counted,
compared and asked of the word is inserted, counted, compared and asked of that set. -/

namespace Terrain.GroupSet

variable {s t : GroupSet}

/-! ### Counting -/

/-- The last binary digit is counted first and the others as those of the half. -/
theorem countOnes_eq_count {k n : Nat} (h : n < 2 ^ k) :
    countOnes n = Nat.count (fun i => n.testBit i = true) k := by
  induction k generalizing n with
  | zero =>
    obtain rfl : n = 0 := Nat.lt_one_iff.mp h
    rw [countOnes, if_pos rfl, Nat.count_zero]
  | succ k ih =>
    have hhalf : n / 2 < 2 ^ k := Nat.div_lt_of_lt_mul (Nat.pow_succ' ▸ h)
    have hlast : (if n.testBit 0 = true then 1 else 0) = n % 2 := by
      rw [Nat.testBit_zero]
      rcases Nat.mod_two_eq_zero_or_one n with hn | hn <;> simp [hn]
    rw [Nat.count_succ', hlast]
    simp only [Nat.testBit_succ]
    rw [← ih hhalf]
    by_cases hzero : n = 0
    · rw [hzero, countOnes, if_pos rfl]
    · rw [countOnes, if_neg hzero, Nat.add_comm]

/-- The places of the groups of a set. -/
def places (s : GroupSet) : Finset Nat := (Finset.range capacity).filter fun i => s.contains ⟨i⟩

theorem size_eq_card (s : GroupSet) : s.size = s.places.card := by
  rw [size, countOnes_eq_count s.bits.isLt, Nat.count_eq_card_filter_range]
  rfl

/-! ### Members below the capacity -/

/-- There are no other members, so a set is known by these. -/
theorem eq_iff_contains :
    s = t ↔ ∀ g : GroupId, g.index < capacity → s.contains g = t.contains g := by
  constructor
  · rintro rfl _ _
    rfl
  · intro h
    refine ext_contains fun g => ?_
    by_cases hg : g.index < capacity
    · exact h g hg
    · have hnone : ∀ u : GroupSet, u.contains g = false := fun u =>
        Bool.eq_false_iff.mpr fun hu => hg (lt_capacity_of_contains hu)
      rw [hnone s, hnone t]

theorem isEmpty_iff_below :
    s.isEmpty = true ↔ ∀ g : GroupId, g.index < capacity → s.contains g = false := by
  rw [isEmpty_iff]
  constructor
  · exact fun h g _ => h g
  · intro h g
    refine Bool.eq_false_iff.mpr fun hg => ?_
    rw [h g (lt_capacity_of_contains hg)] at hg
    cases hg

theorem intersects_iff_below :
    s.intersects t = true ↔
      ∃ g : GroupId, g.index < capacity ∧ s.contains g = true ∧ t.contains g = true := by
  rw [intersects_iff]
  constructor
  · rintro ⟨g, hs, ht⟩
    exact ⟨g, lt_capacity_of_contains hs, hs, ht⟩
  · rintro ⟨g, _, hs, ht⟩
    exact ⟨g, hs, ht⟩

/-! ### Insertions -/

/-- Insertions of known groups one after the other: the members are those of before and the inserted
    ones, in whatever order and however often they were inserted. The set is counted, compared and
    met with another one by its members. -/
theorem members_foldl_insert (s : GroupSet) {gs : List GroupId}
    (hgs : ∀ g ∈ gs, g.index < capacity) :
    (∀ g : GroupId, g.index < capacity →
      ((gs.foldl insert s).contains g = true ↔ s.contains g = true ∨ g ∈ gs)) ∧
    (∀ hs : List GroupId, (∀ g, g ∈ hs ↔ g ∈ gs) → hs.foldl insert s = gs.foldl insert s) ∧
    (gs.foldl insert s).size = (gs.foldl insert s).places.card ∧
    ((gs.foldl insert s).isEmpty = true ↔
      ∀ g : GroupId, g.index < capacity → (gs.foldl insert s).contains g = false) ∧
    (∀ t : GroupSet, (gs.foldl insert s).intersects t = true ↔
      ∃ g : GroupId, g.index < capacity ∧
        (gs.foldl insert s).contains g = true ∧ t.contains g = true) ∧
    ∀ t : GroupSet, gs.foldl insert s = t ↔
      ∀ g : GroupId, g.index < capacity → (gs.foldl insert s).contains g = t.contains g := by
  have hmembers : ∀ g : GroupId,
      (gs.foldl insert s).contains g = true ↔ s.contains g = true ∨ g ∈ gs := by
    intro g
    rw [contains_foldl_insert]
    exact or_congr_right (and_iff_left_of_imp (hgs g))
  refine ⟨fun g _ => hmembers g, fun hs hsame => ?_, size_eq_card _, isEmpty_iff_below,
    fun t => intersects_iff_below, fun t => eq_iff_contains⟩
  refine ext_contains fun g => Bool.eq_iff_iff.mpr ?_
  rw [contains_foldl_insert, hmembers, hsame]
  exact or_congr_right (and_iff_left_of_imp (hgs g))

/-- The last group is inserted twice into a set that has the first one. -/
theorem members_foldl_insert_ends :
    let gs : List GroupId := [⟨63⟩, ⟨5⟩, ⟨63⟩]
    let s := single ⟨0⟩
    let t := gs.foldl insert s
    (∀ g ∈ gs, g.index < capacity) ∧ (t.contains ⟨63⟩ = true ↔ s.contains ⟨63⟩ = true ∨ ⟨63⟩ ∈ gs) ∧
      [⟨5⟩, ⟨63⟩].foldl insert s = t ∧ t.size = t.places.card := by
  intro gs s t
  have hgs : ∀ g ∈ gs, g.index < capacity := by decide
  obtain ⟨hmembers, hsame, hsize, _⟩ := members_foldl_insert s hgs
  refine ⟨hgs, hmembers ⟨63⟩ (by decide), hsame [⟨5⟩, ⟨63⟩] fun g => ?_, hsize⟩
  simp only [gs, List.mem_cons, List.not_mem_nil, or_false]
  tauto

end Terrain.GroupSet
