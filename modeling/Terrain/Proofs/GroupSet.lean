import Terrain.GroupSet

/-! ## Group sets as sets

A set of groups is known by its members: two sets with the same members are equal, and what the
resolver asks of a set is answered by its members. -/

namespace Terrain.GroupSet

/-- Members lie below the capacity, also those of a set that no rule set has made. -/
theorem lt_capacity_of_contains {s : GroupSet} {g : GroupId} (h : s.contains g = true) :
    g.index < capacity := by
  rcases Nat.lt_or_ge g.index 64 with hlt | hge
  · exact hlt
  · rw [contains, BitVec.getLsbD_of_ge _ _ hge] at h
    cases h

theorem ext_contains {s t : GroupSet} (h : ∀ g, s.contains g = t.contains g) : s = t := by
  cases s with | mk u => cases t with | mk v =>
  congr
  refine BitVec.eq_of_getLsbD_eq ?_
  intro i _
  exact h ⟨i⟩

theorem contains_of_bits_eq_zero {s : GroupSet} (h : s.bits = 0) (g : GroupId) :
    s.contains g = false := by
  rw [contains, h]
  exact BitVec.getLsbD_zero

theorem isEmpty_iff {s : GroupSet} : s.isEmpty = true ↔ ∀ g, s.contains g = false := by
  unfold isEmpty
  rw [beq_iff_eq]
  constructor
  · exact contains_of_bits_eq_zero
  · intro h
    have hs : s = empty := by
      apply ext_contains
      intro g
      rw [h g]
      exact (contains_empty g).symm
    exact congrArg bits hs

theorem intersects_iff {s t : GroupSet} :
    s.intersects t = true ↔ ∃ g, s.contains g = true ∧ t.contains g = true := by
  have hand : ∀ g, contains ⟨s.bits &&& t.bits⟩ g = (s.contains g && t.contains g) := fun g =>
    BitVec.getLsbD_and
  constructor
  · intro h
    refine Classical.byContradiction fun hnone => ?_
    have hempty : isEmpty ⟨s.bits &&& t.bits⟩ = true := by
      refine isEmpty_iff.mpr fun g => ?_
      rw [hand g]
      refine Bool.eq_false_iff.mpr fun hg => hnone ⟨g, ?_⟩
      exact (Bool.and_eq_true _ _).mp hg
    have hne : (s.bits &&& t.bits) ≠ 0 := bne_iff_ne.mp h
    exact hne (beq_iff_eq.mp hempty)
  · intro ⟨g, hs, ht⟩
    refine bne_iff_ne.mpr fun hzero => ?_
    have hg : (s.contains g && t.contains g) = false := by
      rw [← hand g]
      exact contains_of_bits_eq_zero hzero g
    rw [hs, ht] at hg
    cases hg

/-- Sets without a common member do not intersect. -/
theorem intersects_eq_false_iff {s t : GroupSet} :
    s.intersects t = false ↔ ∀ g, s.contains g = true → t.contains g = false := by
  simp only [← Bool.not_eq_true, intersects_iff, not_exists, not_and]

theorem contains_foldl_insert (gs : List GroupId) (s : GroupSet) (g : GroupId) :
    (gs.foldl insert s).contains g = true ↔
      s.contains g = true ∨ (g ∈ gs ∧ g.index < capacity) := by
  induction gs generalizing s with
  | nil => simp
  | cons h gs ih =>
    simp only [List.foldl_cons, ih, contains_insert, Bool.or_eq_true, Bool.and_eq_true,
      decide_eq_true_eq, List.mem_cons, or_assoc]
    -- A member comes from the start, is the first one inserted, or is inserted later.
    constructor
    · rintro (hs | ⟨rfl, hh⟩ | ⟨hg, hlt⟩)
      · exact .inl hs
      · exact .inr ⟨.inl rfl, hh⟩
      · exact .inr ⟨.inr hg, hlt⟩
    · rintro (hs | ⟨rfl | hg, hlt⟩)
      · exact .inl hs
      · exact .inr (.inl ⟨rfl, hlt⟩)
      · exact .inr (.inr ⟨hg, hlt⟩)

theorem contains_ofList {gs : List GroupId} {g : GroupId} :
    (ofList gs).contains g = true ↔ g ∈ gs ∧ g.index < capacity := by
  rw [ofList, contains_foldl_insert, contains_empty]
  simp

theorem mem_toList {s : GroupSet} {g : GroupId} : g ∈ s.toList ↔ s.contains g = true := by
  simp only [toList, List.mem_filter, List.mem_map, List.mem_range]
  constructor
  · exact And.right
  · intro h
    exact ⟨⟨g.index, lt_capacity_of_contains h, rfl⟩, h⟩

end Terrain.GroupSet
