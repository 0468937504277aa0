import Mathlib.Data.List.Find
import Terrain.Proofs.Grid.Edits
import Terrain.Proofs.Resolver.Answers
import Terrain.Proofs.Session.Coherent

/-! ## What a move can see

A move reads the tiles in two cells, that of the new position and that of the old one, and around
each of them the groups of the eight neighbours. Of these groups only some concern its category.
Whatever else differs between two grids, the move ends alike on both. -/

namespace Terrain

/-! ### Groups that concern a category -/

/-- The groups that a category lists, and those that block one of its formulas in a direction. -/
def RuleSet.Concerns (r : RuleSet) (c : Category) (g : GroupId) : Prop :=
  g ∈ c.groups ∨ ∃ k ∈ c.formulas, ∃ f, r.formula? k = some f ∧
    ∃ o, (f.constraint.blockers.get o).contains g = true

/-- The category has the formulas of all groups that it lists. -/
def Category.Gathers (r : RuleSet) (c : Category) : Prop :=
  ∀ g ∈ c.groups, ∀ group, r.group? g = some group → ∀ k ∈ group.formulas, k ∈ c.formulas

theorem Draft.linked_gathers (d : Draft) (id : RuleSetId) :
    ∀ c ∈ (d.linked id).categories, c.Gathers (d.linked id) := by
  intro c hc g hg group hgroup k hk
  obtain ⟨cd, _, rfl⟩ := List.mem_map.mp hc
  refine List.mem_eraseDups.mpr (List.mem_flatMap.mpr ⟨g, hg, ?_⟩)
  rw [show d.linkedGroups[g.index]? = some group from hgroup]
  exact hk

theorem RuleSource.load_gathers {source : RuleSource} {id : RuleSetId} {r : RuleSet}
    (h : source.load id = .ok r) : ∀ c ∈ r.categories, c.Gathers r := by
  obtain rfl | ⟨d, hd⟩ := load_cases h
  · exact fun _ hc => absurd hc List.not_mem_nil
  · obtain ⟨_, rfl⟩ := Draft.link_eq_ok_iff.mp hd
    exact d.linked_gathers id

/-! ### Cells within one step -/

/-- Two addresses with one step between them at most, along each axis. -/
def Cell.Near (c d : Cell) : Prop :=
  (c.x.toInt - d.x.toInt).natAbs ≤ 1 ∧ (c.y.toInt - d.y.toInt).natAbs ≤ 1

theorem Cell.Near.refl (c : Cell) : c.Near c := by
  unfold Near
  omega

theorem Cell.near_of_neighbor? {c d : Cell} {o : Orientation} (h : c.neighbor? o = some d) :
    c.Near d := by
  obtain ⟨hx, hy⟩ := neighbor?_eq_some_iff.mp h
  unfold Near
  rw [hx, hy]
  cases o <;> dsimp only [Orientation.offset] <;> omega

/-- Every tile carries the address of the cell that it is found in. -/
def Grid.Addressed (grid : Grid) : Prop :=
  ∀ cell tile, grid.tileAt cell = some tile → tile.cell = cell

theorem Cell.neighbor?_center (c : Cell) : c.neighbor? .center = some c := by
  refine neighbor?_eq_some_iff.mpr ⟨?_, ?_⟩
  · exact (Int.add_zero _).symm
  · exact (Int.add_zero _).symm

/-- Around a tile at its own address, the groups in all directions are those of the cells there. -/
theorem Grid.Addressed.around_eq {grid : Grid} (h : grid.Addressed) {cell : Cell} {tile : Tile}
    (htile : grid.tileAt cell = some tile) (o : Orientation) :
    grid.around tile o = Neighborhood.lookup grid cell o := by
  unfold Grid.around Neighborhood.fresh
  rw [h cell tile htile]
  split
  · rename_i ho
    subst ho
    simp [Neighborhood.lookup, Cell.neighbor?_center, groupsAt, htile]
  · rfl

/-! ### Grids that agree where a move looks -/

/-- As far as a move of a category can see, two grids are the same: the cells have the same size,
    the visited ones hold the same tiles, and one step around them the same of the groups that
    concern the category stand. -/
structure Grid.AgreesFor (grid grid' : Grid) (r : RuleSet) (c : Category) (old new : Point) :
    Prop where
  tileWidth : grid.tileWidth = grid'.tileWidth
  tileHeight : grid.tileHeight = grid'.tileHeight
  addressed : grid.Addressed
  addressed' : grid'.Addressed
  tileAt : ∀ {cell}, Resolver.Visits c grid old new cell → grid.tileAt cell = grid'.tileAt cell
  groupsAt : ∀ {cell near g}, Resolver.Visits c grid old new cell → cell.Near near →
    r.Concerns c g → (grid.groupsAt near).contains g = (grid'.groupsAt near).contains g

/-- What blocks a formula depends on the groups in its constraint only. -/
theorem Constraint.blockedAmid_congr {c : Constraint} {around around' : Orientation → GroupSet}
    (h : ∀ o g, (c.blockers.get o).contains g = true →
      (around o).contains g = (around' o).contains g) :
    c.blockedAmid around = c.blockedAmid around' := by
  refine Bool.eq_iff_iff.mpr (blockedAmid_iff.trans (Iff.trans ?_ blockedAmid_iff.symm))
  refine exists_congr fun o => exists_congr fun g => and_congr_right fun hg => ?_
  rw [h o g hg]

theorem Formula.fires_congr {f : Formula} {around around' : Orientation → GroupSet}
    (h : ∀ o g, (f.constraint.blockers.get o).contains g = true →
      (around o).contains g = (around' o).contains g) (axis : Axis) (p : Pixel) :
    f.fires axis p around = f.fires axis p around' := by
  unfold fires
  rw [Constraint.blockedAmid_congr h]

namespace Resolver

variable {r : Resolver} {c : Category}

/-- Which formulas are tried depends on the category's own groups only. -/
theorem candidates_congr {own own' : GroupSet}
    (h : ∀ g ∈ c.groups, own.contains g = own'.contains g) :
    r.candidates c own = r.candidates c own' := by
  unfold candidates
  rw [List.filter_congr h]

/-- A formula that is tried is one of the category's, so the groups that block it concern the
    category. -/
theorem concerns_of_mem_candidates (hc : c.Gathers r.rules) {own : GroupSet} {f : Formula}
    (hf : f ∈ r.candidates c own) {o : Orientation} {g : GroupId}
    (hg : (f.constraint.blockers.get o).contains g = true) : r.rules.Concerns c g := by
  obtain ⟨i, j, g', ⟨hi, group, k, hgroup, hj, hk⟩, _⟩ := mem_candidates_iff.mp hf
  refine .inr ⟨k, ?_, f, hk, o, hg⟩
  exact hc g' (List.mem_of_getElem? hi) group hgroup k (List.mem_of_getElem? hj)

theorem probe_eq_of_agrees (hmask : ∀ g ∈ c.groups, c.mask.contains g = true)
    (hc : c.Gathers r.rules) {grid grid' : Grid} {old new : Point}
    (h : grid.AgreesFor grid' r.rules c old new) {cell : Cell} {tile : Tile}
    (hvisits : Visits c grid old new cell) (htile : grid.tileAt cell = some tile) (p : Point) :
    r.probe c tile p grid = r.probe c tile p grid' := by
  have htile' : grid'.tileAt cell = some tile := (h.tileAt hvisits).symm.trans htile
  have haround : ∀ o g, r.rules.Concerns c g →
      (grid.around tile o).contains g = (grid'.around tile o).contains g := by
    intro o g hg
    rw [h.addressed.around_eq htile, h.addressed'.around_eq htile']
    unfold Neighborhood.lookup
    cases hn : cell.neighbor? o with
    | none => rfl
    | some near => exact h.groupsAt hvisits (Cell.near_of_neighbor? hn) hg
  -- The tile's own groups are those in the direction of the cell itself.
  have hown : ∀ g ∈ c.groups, (grid.membership tile).contains g =
      (grid'.membership tile).contains g := fun g hg => haround .center g (.inl hg)
  rw [r.probe_eq_find? hmask, r.probe_eq_find? hmask, candidates_congr hown]
  refine congrArg _ (List.find?_congr fun f hf => ?_)
  exact f.fires_congr (fun o g hg => haround o g (concerns_of_mem_candidates hc hf hg)) _ _

end Resolver

/-! ### Edits out of sight -/

theorem TileMap.addressed (m : TileMap) : m.toGrid.Addressed := by
  intro cell tile h
  obtain ⟨p, _, rfl⟩ := Option.map_eq_some_iff.mp h
  rfl

theorem TileMap.groupsAt_edit_of_ne {m : TileMap} {e : TileMap.Edit} {cell : Cell}
    (hne : cell ≠ e.cell) : (m.edit e).toGrid.groupsAt cell = m.toGrid.groupsAt cell := by
  have htile : (m.edit e).toGrid.tileAt cell = m.toGrid.tileAt cell := tileAt_edit_of_ne hne
  unfold Grid.groupsAt
  rw [htile]
  cases ht : m.toGrid.tileAt cell with
  | none => rfl
  | some tile =>
    refine congrArg (fun s => (some s).getD ∅) (membership_edit_of_ne ?_)
    rw [m.addressed cell tile ht]
    exact hne

/-- An edit that is more than one step away from what a move visits changes nothing for it. -/
theorem TileMap.agreesFor_edit {m : TileMap} {e : TileMap.Edit} {c : Category} {old new : Point}
    (h : ∀ cell, Resolver.Visits c m.toGrid old new cell → ¬cell.Near e.cell) (r : RuleSet) :
    m.toGrid.AgreesFor (m.edit e).toGrid r c old new := by
  obtain ⟨hwidth, hheight⟩ := edit_sizes m e
  refine ⟨hwidth.symm, hheight.symm, m.addressed, (m.edit e).addressed, ?_, ?_⟩
  · intro cell hvisits
    have hne : cell ≠ e.cell := fun heq => h cell hvisits (heq ▸ .refl cell)
    exact (tileAt_edit_of_ne hne).symm
  · intro cell near g hvisits hnear _
    have hne : near ≠ e.cell := fun heq => h cell hvisits (heq ▸ hnear)
    rw [groupsAt_edit_of_ne hne]

/-! ### Moves -/

namespace Resolver

theorem resolve_eq_of_agrees {r : Resolver} {c : Category}
    (hmask : ∀ g ∈ c.groups, c.mask.contains g = true) (hc : c.Gathers r.rules) {grid grid' : Grid}
    {old new : Point} (h : grid.AgreesFor grid' r.rules c old new) :
    r.resolve c old new grid = r.resolve c old new grid' := by
  refine resolve_congr_of_visits rfl rfl rfl rfl Iff.rfl h.tileWidth h.tileHeight ?_ ?_
  · exact fun cell hvisits => h.tileAt hvisits
  · intro cell tile hvisits htile
    exact probe_eq_of_agrees hmask hc h hvisits htile _

/-- A move ends alike on two grids that agree as far as it can see. On a map, an edit of a cell that
    is more than one step away from the new and from the old cell is never seen. -/
theorem resolve_sees_nearby {source : RuleSource} {id : RuleSetId} {rules : RuleSet}
    (hload : source.load id = .ok rules) (lookback : Lookback) {c : Category}
    (hc : c ∈ rules.categories) (old new : Point) :
    (∀ {grid grid' : Grid}, grid.AgreesFor grid' rules c old new →
      (Resolver.mk rules lookback).resolve c old new grid =
        (Resolver.mk rules lookback).resolve c old new grid') ∧
    ∀ {m : TileMap} {e : TileMap.Edit},
      (∀ cell, Visits c m.toGrid old new cell → ¬cell.Near e.cell) →
      (Resolver.mk rules lookback).resolve c old new (m.edit e).toGrid =
        (Resolver.mk rules lookback).resolve c old new m.toGrid := by
  have hmask := ((RuleSource.load_closed hload).categories c hc).mem_mask
  have hgathers := RuleSource.load_gathers hload c hc
  constructor
  · intro grid grid' h
    exact resolve_eq_of_agrees hmask hgathers h
  · intro m e h
    exact (resolve_eq_of_agrees hmask hgathers (TileMap.agreesFor_edit h rules)).symm

/-- A fall from the ledge on a field without edges. On another grid there is a hole elsewhere, and
    all tiles belong to one more group, which is none of the ledge. On a map a cell two columns away
    is cleared. -/
theorem resolve_sees_nearby_ledge :
    let rules := Draft.ledge.linked ⟨1⟩
    let feet : Category := ⟨"feet", .y, 0, 0, [⟨0⟩], ⟨1⟩, [⟨0⟩, ⟨1⟩], ⟨1⟩⟩
    let old : Point := ⟨.ofInt 40, .ofInt 60⟩
    let new : Point := ⟨.ofInt 40, .ofInt 70⟩
    let field : Field := ⟨16, 16, 16, 16, some ⟨0, 1⟩, [(⟨2, 2⟩, some ⟨0, 2⟩)], rules⟩
    let other : Grid := ⟨fun cell => if cell = ⟨2, 6⟩ then none else field.tileAt cell,
      fun tile => field.membership tile ∪ .single ⟨5⟩, 16, 16⟩
    let m : TileMap := ⟨4, 6, 16, 16, Array.replicate 24 (some ⟨⟨0, 1⟩, ⟨1⟩⟩)⟩
    let e : TileMap.Edit := ⟨⟨0, 4⟩, none, rules⟩
    (RuleSource.draft Draft.ledge).load ⟨1⟩ = .ok rules ∧ feet ∈ rules.categories ∧
      field.toGrid.AgreesFor other rules feet old new ∧
      (Resolver.mk rules .axisChange).resolve feet old new field.toGrid =
        (Resolver.mk rules .axisChange).resolve feet old new other ∧
      (∀ cell, Visits feet m.toGrid old new cell → ¬cell.Near e.cell) ∧
      (Resolver.mk rules .axisChange).resolve feet old new (m.edit e).toGrid =
        (Resolver.mk rules .axisChange).resolve feet old new m.toGrid := by
  intro rules feet old new field other m e
  have hload : (RuleSource.draft Draft.ledge).load ⟨1⟩ = .ok rules := Draft.link_ledge ⟨1⟩
  have hfeet : feet ∈ rules.categories := by decide +kernel
  have hvisits : ∀ {grid : Grid}, grid.tileWidth = 16 → grid.tileHeight = 16 → ∀ {cell},
      Visits feet grid old new cell → cell = ⟨2, 4⟩ ∨ cell = ⟨2, 3⟩ := by
    intro grid hwidth hheight cell h
    have hnew : Cell.containing? (new + feet.offset) 16 16 = some ⟨2, 4⟩ := by decide +kernel
    have hold : Cell.containing? (old + feet.offset) 16 16 = some ⟨2, 3⟩ := by decide +kernel
    unfold Visits at h
    rw [hwidth, hheight, hnew, hold] at h
    exact h.imp (fun h => (Option.some.inj h).symm) (fun h => (Option.some.inj h).symm)
  have hconcerns : ∀ g, rules.Concerns feet g → g ≠ ⟨5⟩ := by
    rintro g (hg | ⟨k, hk, f, hf, o, hg⟩) rfl
    · exact absurd hg (by decide)
    · have hblockers : ∀ k ∈ feet.formulas, ∀ f ∈ rules.formula? k, ∀ o ∈ Orientation.all,
          (f.constraint.blockers.get o).contains ⟨5⟩ = false := by decide +kernel
      rw [hblockers k hk f hf o (Orientation.mem_all o)] at hg
      cases hg
  have hfar : ∀ {cell near : Cell}, cell = ⟨2, 4⟩ ∨ cell = ⟨2, 3⟩ → cell.Near near →
      near ≠ ⟨2, 6⟩ ∧ near ≠ ⟨0, 4⟩ := by
    rintro cell near hcell hnear
    constructor
    · rintro rfl
      rcases hcell with rfl | rfl <;> exact absurd hnear (by unfold Cell.Near; decide)
    · rintro rfl
      rcases hcell with rfl | rfl <;> exact absurd hnear (by unfold Cell.Near; decide)
  have haddressed : field.toGrid.Addressed := by
    intro cell tile h
    obtain ⟨id, _, rfl⟩ := Option.map_eq_some_iff.mp h
    rfl
  have hsame : ∀ {cell : Cell}, cell ≠ ⟨2, 6⟩ → other.tileAt cell = field.toGrid.tileAt cell :=
    fun hne => if_neg hne
  have hother : field.toGrid.AgreesFor other rules feet old new := by
    refine ⟨rfl, rfl, haddressed, ?_, ?_, ?_⟩
    · intro cell tile h
      by_cases hcell : cell = ⟨2, 6⟩
      · simp [other, hcell] at h
      · exact haddressed cell tile ((hsame hcell).symm.trans h)
    · intro cell h
      exact (hsame (hfar (hvisits rfl rfl h) (.refl cell)).1).symm
    · intro cell near g h hnear hg
      unfold Grid.groupsAt
      rw [hsame (hfar (hvisits rfl rfl h) hnear).1]
      cases field.toGrid.tileAt near with
      | none => rfl
      | some tile =>
        simp only [Option.map_some, Option.getD_some, other, GroupSet.contains_union,
          GroupSet.contains_single, Ne.symm (hconcerns g hg), decide_false, Bool.false_and,
          Bool.or_false]
        rfl
  have hedit : ∀ cell, Visits feet m.toGrid old new cell → ¬cell.Near e.cell := fun cell h hnear =>
    (hfar (hvisits rfl rfl h) hnear).2 rfl
  have hlocal := resolve_sees_nearby hload .axisChange hfeet old new
  exact ⟨hload, hfeet, hother, hlocal.1 hother, hedit, hlocal.2 hedit⟩

end Resolver
end Terrain
