import Mathlib.Data.List.Forall2
import Terrain.Proofs.Resolver.Answers

/-! ## A neighbourhood asked again and again

One neighbourhood serves all the formulas of a tile. Whatever it was asked before, it answers each
of them as the grid would answer now, and what it keeps is what the grid would give now. -/

namespace Terrain.Neighborhood

variable {grid : Grid} {center : Cell} {own : GroupSet} {n : Neighborhood}

/-! ### What the grid gives now -/

/-- The address in a direction from a cell, counted without a limit. -/
def Leads (center : Cell) (o : Orientation) (cell : Cell) : Prop :=
  cell.x.toInt = center.x.toInt + o.offset.1 ∧ cell.y.toInt = center.y.toInt + o.offset.2

/-- The groups in a direction: in the cell itself its own, elsewhere those of the tile at the
    address that the direction leads to, and none if there is no tile or no such address. -/
inductive Gives (grid : Grid) (center : Cell) (own : GroupSet) : Orientation → GroupSet → Prop
  | own : Gives grid center own .center own
  | tile {o : Orientation} {cell : Cell} {tile : Tile} (ho : o ≠ .center)
      (hcell : Leads center o cell) (htile : grid.tileAt cell = some tile) :
      Gives grid center own o (grid.membership tile)
  | hole {o : Orientation} {cell : Cell} (ho : o ≠ .center) (hcell : Leads center o cell)
      (hhole : grid.tileAt cell = none) : Gives grid center own o ∅
  | edge {o : Orientation} (ho : o ≠ .center) (hedge : ∀ cell, ¬Leads center o cell) :
      Gives grid center own o ∅

theorem gives_fresh (grid : Grid) (center : Cell) (own : GroupSet) (o : Orientation) :
    Gives grid center own o (fresh grid center own o) := by
  unfold fresh
  split
  · rename_i ho
    subst ho
    exact .own
  · rename_i ho
    unfold lookup
    cases hcell : center.neighbor? o with
    | none =>
      refine .edge ho fun cell hleads => ?_
      rw [Cell.neighbor?_eq_some_iff.mpr hleads] at hcell
      cases hcell
    | some cell =>
      have hleads : Leads center o cell := Cell.neighbor?_eq_some_iff.mp hcell
      rw [Option.map_some, Option.getD_some, Grid.groupsAt]
      cases htile : grid.tileAt cell with
      | none => exact .hole ho hleads htile
      | some tile => exact .tile ho hleads htile

/-- The grid gives one set in each direction. -/
theorem Gives.eq_fresh {o : Orientation} {s : GroupSet} (h : Gives grid center own o s) :
    s = fresh grid center own o := by
  unfold fresh
  cases h with
  | own => exact (if_pos rfl).symm
  | tile ho hcell htile =>
    rw [if_neg ho, lookup, Cell.neighbor?_eq_some_iff.mpr hcell]
    simp [Grid.groupsAt, htile]
  | hole ho hcell hhole =>
    rw [if_neg ho, lookup, Cell.neighbor?_eq_some_iff.mpr hcell]
    simp [Grid.groupsAt, hhole]
  | edge ho hedge =>
    have hnone : center.neighbor? o = none :=
      Option.eq_none_iff_forall_ne_some.mpr fun cell hcell =>
        hedge cell (Cell.neighbor?_eq_some_iff.mp hcell)
    rw [if_neg ho, lookup, hnone]
    rfl

/-- Blocked amid what the grid gives now. -/
theorem blockedAmid_fresh_iff {c : Constraint} :
    c.blockedAmid (fresh grid center own) = true ↔
      ∃ o s, Gives grid center own o s ∧ (c.blockers.get o).intersects s = true := by
  rw [Constraint.blockedAmid, List.any_eq_true]
  constructor
  · rintro ⟨o, _, hblocked⟩
    exact ⟨o, _, gives_fresh grid center own o, hblocked⟩
  · rintro ⟨o, s, hgives, hblocked⟩
    rw [hgives.eq_fresh] at hblocked
    exact ⟨o, o.mem_all, hblocked⟩

/-! ### Questions one after the other -/

/-- Asks about each formula in turn. -/
def suppressesEach (grid : Grid) : Neighborhood → List Formula → List Bool × Neighborhood
  | n, [] => ([], n)
  | n, f :: fs =>
    let (suppressed, n) := n.suppresses grid f
    let (rest, n) := suppressesEach grid n fs
    (suppressed :: rest, n)

theorem suppressesEach_cons (n : Neighborhood) (f : Formula) (fs : List Formula) :
    suppressesEach grid n (f :: fs) =
      ((n.suppresses grid f).1 :: (suppressesEach grid (n.suppresses grid f).2 fs).1,
        (suppressesEach grid (n.suppresses grid f).2 fs).2) := rfl

theorem suppressesEach_append (n : Neighborhood) (fs gs : List Formula) :
    suppressesEach grid n (fs ++ gs) =
      ((suppressesEach grid n fs).1 ++ (suppressesEach grid (suppressesEach grid n fs).2 gs).1,
        (suppressesEach grid (suppressesEach grid n fs).2 gs).2) := by
  induction fs generalizing n with
  | nil => rfl
  | cons f fs ih => rw [List.cons_append, suppressesEach_cons, ih, suppressesEach_cons]; rfl

/-- By induction on the questions: each is asked of a state that is consistent still. -/
theorem suppressesEach_answered (h : n.Consistent grid own) (fs : List Formula) :
    Answered grid own n (suppressesEach grid n fs)
      (fs.map fun f => f.constraint.blockedAmid (fresh grid n.center own)) := by
  induction fs generalizing n with
  | nil => exact .pure h []
  | cons f fs ih =>
    have hfirst := suppresses_answered f h
    have hrest := ih hfirst.consistent
    rw [suppressesEach_cons, List.map_cons]
    refine ⟨?_, hfirst.grows.trans hrest.grows, hrest.consistent⟩
    rw [hfirst.answer, hrest.answer, hfirst.grows.center_eq]

/-- Asked about any formulas in turn, a neighbourhood answers about each of them whether a group
    that blocks it stands in some direction now. In no direction it keeps anything but what the grid
    gives now, and what it kept after some of the questions it keeps after all of them. -/
theorem suppressesEach_as_given (grid : Grid) (tile : Tile) (own : GroupSet) (fs : List Formula) :
    List.Forall₂ (fun f answer => answer = true ↔
        ∃ o s, Gives grid tile.cell own o s ∧ (f.constraint.blockers.get o).intersects s = true)
      fs (suppressesEach grid (around tile own) fs).1 ∧
    (∀ o s, (suppressesEach grid (around tile own) fs).2.known.get o = some s →
      Gives grid tile.cell own o s) ∧
    ∀ before after, fs = before ++ after → ∀ o s,
      (suppressesEach grid (around tile own) before).2.known.get o = some s →
        (suppressesEach grid (around tile own) fs).2.known.get o = some s := by
  have hall := suppressesEach_answered (around_consistent grid tile own) fs
  have hcenter : (suppressesEach grid (around tile own) fs).2.center = tile.cell :=
    hall.grows.center_eq
  refine ⟨?_, fun o s hs => ?_, ?_⟩
  · rw [hall.answer, List.forall₂_map_right_iff, List.forall₂_same]
    exact fun f _ => blockedAmid_fresh_iff
  · rw [hall.consistent.eq_fresh hs, hcenter]
    exact gives_fresh grid tile.cell own o
  · rintro before after rfl o s hs
    have hbefore := suppressesEach_answered (around_consistent grid tile own) before
    rw [suppressesEach_append]
    exact (suppressesEach_answered hbefore.consistent after).grows.kept hs

/-- A block stands above the ledge. The groups there, which the question about the floor fetched,
    are what the grid gives and are still kept after two more questions. -/
theorem suppressesEach_as_given_ledge :
    let rules := Draft.ledge.linked ⟨1⟩
    let grid := (Field.mk 16 16 16 16 none
      [(⟨2, 2⟩, some ⟨0, 2⟩), (⟨2, 3⟩, some ⟨0, 1⟩)] rules).toGrid
    let tile : Tile := ⟨some ⟨0, 1⟩, ⟨2, 3⟩, 16, 16⟩
    let n := around tile (.single ⟨0⟩)
    ∃ floor low, rules.formulas = [floor, low] ∧
      (suppressesEach grid n [floor]).2.known.get .top = some (.single ⟨1⟩) ∧
      Gives grid tile.cell (.single ⟨0⟩) .top (.single ⟨1⟩) ∧
      (suppressesEach grid n [floor, low, floor]).2.known.get .top = some (.single ⟨1⟩) := by
  intro rules grid tile n
  have hformulas : ∃ floor low, rules.formulas = [floor, low] ∧
      (suppressesEach grid n [floor]).2.known.get .top = some (.single ⟨1⟩) := by
    refine ⟨_, _, rfl, ?_⟩
    decide +kernel
  obtain ⟨floor, low, hrules, hfirst⟩ := hformulas
  obtain ⟨_, hgiven, _⟩ := suppressesEach_as_given grid tile (.single ⟨0⟩) [floor]
  obtain ⟨_, _, hkept⟩ := suppressesEach_as_given grid tile (.single ⟨0⟩) [floor, low, floor]
  exact ⟨floor, low, hrules, hfirst, hgiven _ _ hfirst, hkept [floor] [low, floor] rfl _ _ hfirst⟩

end Terrain.Neighborhood
