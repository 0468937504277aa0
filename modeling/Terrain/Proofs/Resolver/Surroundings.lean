import Terrain.Proofs.GroupSet
import Terrain.Resolver.Neighborhood

/-! ## Surroundings without a memory

A neighbourhood keeps what it has asked of the grid. Here it is compared with asking anew each
time: as long as every kept set is the one that the grid would give now, the answers are the same,
in whatever order the questions come. -/

namespace Terrain

/-- Whether one of the groups around a cell is a blocking one in its direction. -/
def Constraint.blockedAmid (c : Constraint) (around : Orientation → GroupSet) : Bool :=
  Orientation.all.any fun o => c.isBlocked o (around o)

theorem Constraint.blockedAmid_iff {c : Constraint} {around : Orientation → GroupSet} :
    c.blockedAmid around = true ↔
      ∃ o g, (c.blockers.get o).contains g = true ∧ (around o).contains g = true := by
  unfold blockedAmid isBlocked
  simp only [List.any_eq_true, Orientation.mem_all, true_and, GroupSet.intersects_iff]

theorem Constraint.isBlocked_of_isEmpty {c : Constraint} {o : Orientation}
    (h : (c.blockers.get o).isEmpty = true) (s : GroupSet) : c.isBlocked o s = false := by
  refine GroupSet.intersects_eq_false_iff.mpr fun g hg => ?_
  simp [GroupSet.isEmpty_iff.mp h g] at hg

theorem Constraint.blockedAmid_of_isUnconstrained {c : Constraint} (h : c.isUnconstrained = true)
    (around : Orientation → GroupSet) : c.blockedAmid around = false := by
  refine List.any_eq_false.mpr fun o ho => ?_
  rw [isBlocked_of_isEmpty (List.all_eq_true.mp h o ho)]
  exact Bool.false_ne_true

namespace Neighborhood

variable {grid : Grid} {own : GroupSet} {n : Neighborhood}

/-- The groups in a direction as the grid gives them now; in the cell itself they are `own`. -/
def fresh (grid : Grid) (center : Cell) (own : GroupSet) (o : Orientation) : GroupSet :=
  if o = .center then own else lookup grid center o

/-- Every kept set is the one that the grid would give now, and the cell's own groups are kept. -/
structure Consistent (grid : Grid) (own : GroupSet) (n : Neighborhood) : Prop where
  own_known : n.known.get .center = some own
  eq_fresh : ∀ {o found}, n.known.get o = some found → found = fresh grid n.center own o

/-- Nothing kept is lost or changed, and the cell stays the same. -/
structure Extends (n m : Neighborhood) : Prop where
  center_eq : m.center = n.center
  kept : ∀ {o found}, n.known.get o = some found → m.known.get o = some found

theorem Extends.refl (n : Neighborhood) : n.Extends n := ⟨rfl, id⟩

theorem Extends.trans {n m k : Neighborhood} (h : n.Extends m) (h' : m.Extends k) : n.Extends k :=
  ⟨h'.center_eq.trans h.center_eq, fun hf => h'.kept (h.kept hf)⟩

/-- A neighbourhood that has asked nothing yet knows the tile's own groups only. -/
theorem around_consistent (grid : Grid) (tile : Tile) (own : GroupSet) :
    (around tile own).Consistent grid own where
  own_known := by
    simp only [around, Compass.get_set, if_pos]
  eq_fresh := by
    intro o found h
    rw [around, Compass.get_set] at h
    split at h
    · rename_i ho
      cases h
      rw [fresh, if_pos ho.symm]
    · simp at h

/-! ### One question -/

/-- A question asked of a consistent neighbourhood: the answer is `a`, what was kept stays, and
    what is kept afterwards is again consistent. -/
structure Answered {α : Type} (grid : Grid) (own : GroupSet) (n : Neighborhood)
    (result : α × Neighborhood) (a : α) : Prop where
  answer : result.1 = a
  grows : n.Extends result.2
  consistent : result.2.Consistent grid own

theorem Answered.pure {α : Type} (h : n.Consistent grid own) (a : α) :
    Answered grid own n (a, n) a :=
  ⟨rfl, .refl n, h⟩

/-- A later question may build on the state that an earlier one left. -/
theorem Answered.after {α β : Type} {m : α × Neighborhood} {a : α} {result : β × Neighborhood}
    {b : β} (h : Answered grid own n m a) (h' : Answered grid own m.2 result b) :
    Answered grid own n result b :=
  ⟨h'.answer, h.grows.trans h'.grows, h'.consistent⟩

theorem groups_answered (h : n.Consistent grid own) (o : Orientation) :
    Answered grid own n (n.groups grid o) (fresh grid n.center own o) := by
  unfold groups
  split
  · rename_i found hfound
    rw [← h.eq_fresh hfound]
    exact .pure h found
  · rename_i hnone
    -- An unfilled slot is never the cell's own, so what the grid answers is fresh.
    have ho : o ≠ .center := by
      intro ho
      simp [ho, h.own_known] at hnone
    have hfresh : lookup grid n.center o = fresh grid n.center own o := by
      rw [fresh, if_neg ho]
    refine ⟨hfresh, ⟨rfl, ?_⟩, ?_, ?_⟩
    · intro p found hp
      -- The slot written was empty, so it is none of those kept.
      have hop : o ≠ p := by
        intro hop
        subst hop
        simp [hp] at hnone
      rw [Compass.get_set, if_neg hop]
      exact hp
    · rw [Compass.get_set, if_neg ho]
      exact h.own_known
    · intro p found hp
      rw [Compass.get_set] at hp
      split at hp
      · rename_i hop
        cases hp
        rw [← hop]
        exact hfresh
      · exact h.eq_fresh hp

theorem blocksIn_answered (c : Constraint) (os : List Orientation) (h : n.Consistent grid own) :
    Answered grid own n (blocksIn grid c n os)
      (os.any fun o => c.isBlocked o (fresh grid n.center own o)) := by
  induction os generalizing n with
  | nil => exact .pure h false
  | cons o os ih =>
    rw [blocksIn, List.any_cons]
    split
    · rename_i hempty
      -- No question is asked where nothing blocks, and none would be answered with yes.
      simp only [Constraint.isBlocked_of_isEmpty hempty, Bool.false_or]
      exact ih h
    · have ha := groups_answered h o
      dsimp only
      rw [ha.answer]
      split
      · rename_i hblocked
        rw [hblocked, Bool.true_or]
        exact ⟨rfl, ha.grows, ha.consistent⟩
      · rename_i hfree
        rw [Bool.eq_false_iff.mpr hfree, Bool.false_or, ← ha.grows.center_eq]
        exact ha.after (ih ha.consistent)

/-- Whether a formula is switched off does not depend on what was asked before. -/
theorem suppresses_answered (f : Formula) (h : n.Consistent grid own) :
    Answered grid own n (n.suppresses grid f)
      (f.constraint.blockedAmid (fresh grid n.center own)) := by
  unfold suppresses
  split
  · rename_i hfree
    rw [Constraint.blockedAmid_of_isUnconstrained hfree]
    exact .pure h false
  · exact blocksIn_answered f.constraint Orientation.all h

end Neighborhood
end Terrain
