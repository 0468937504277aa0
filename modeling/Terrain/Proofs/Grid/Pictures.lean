import Terrain.Grid.TileMap
import Terrain.Proofs.Resolver.FirstMatch

/-! ## Maps by their pictures

A map keeps groups with its pictures. Here the two are taken apart: which picture is in a cell, and
which rule set all groups were looked up in. Maps of the same pictures have the same tiles, and
differ in the groups of these tiles at most. -/

namespace Terrain

/-! ### Grids with the same tiles -/

/-- The same tiles in cells of the same size. -/
structure Grid.SameTiles (grid grid' : Grid) : Prop where
  tileWidth : grid.tileWidth = grid'.tileWidth
  tileHeight : grid.tileHeight = grid'.tileHeight
  tileAt : ∀ cell, grid.tileAt cell = grid'.tileAt cell

/-- A group that has the same tiles in one grid as another has in the other grid stands in the same
    directions from each tile. -/
theorem Grid.SameTiles.contains_around {grid grid' : Grid} (h : grid.SameTiles grid')
    {g g' : GroupId}
    (hg : ∀ t, (grid.membership t).contains g = (grid'.membership t).contains g') (tile : Tile)
    (o : Orientation) :
    (grid.around tile o).contains g = (grid'.around tile o).contains g' := by
  have hat : ∀ cell, (grid.groupsAt cell).contains g = (grid'.groupsAt cell).contains g' := by
    intro cell
    unfold groupsAt
    rw [h.tileAt cell]
    cases grid'.tileAt cell with
    | none => simp
    | some neighbor => exact hg neighbor
  unfold around Neighborhood.fresh
  split
  · exact hg tile
  · unfold Neighborhood.lookup
    cases tile.cell.neighbor? o with
    | none => simp
    | some cell => exact hat cell

namespace TileMap

variable {m m' : TileMap} {r r' : RuleSet}

/-! ### Pictures and their groups -/

def pictureAt? (m : TileMap) (cell : Cell) : Option TileId := (m.placement? cell).map (·.id)

/-- The groups that the map keeps are those that the rule set has for the pictures. -/
def GroupedBy (m : TileMap) (r : RuleSet) : Prop :=
  ∀ cell p, m.placement? cell = some p → p.groups = r.groupsForTile p.id

/-- The same pictures in cells of the same size. -/
structure SamePictures (m m' : TileMap) : Prop where
  tileWidth : m.tileWidth = m'.tileWidth
  tileHeight : m.tileHeight = m'.tileHeight
  pictureAt? : ∀ cell, m.pictureAt? cell = m'.pictureAt? cell

theorem tileAt_eq_map (m : TileMap) (cell : Cell) :
    m.tileAt cell =
      (m.pictureAt? cell).map fun id => ⟨some id, cell, m.tileWidth, m.tileHeight⟩ := by
  simp only [tileAt, pictureAt?, Option.map_map]
  rfl

theorem SamePictures.sameTiles (h : m.SamePictures m') : m.toGrid.SameTiles m'.toGrid where
  tileWidth := h.tileWidth
  tileHeight := h.tileHeight
  tileAt := by
    intro cell
    show m.tileAt cell = m'.tileAt cell
    simp only [tileAt_eq_map, h.pictureAt? cell, h.tileWidth, h.tileHeight]

/-- A tile has groups as long as its picture is still in its cell. -/
theorem GroupedBy.membership_eq (h : m.GroupedBy r) (t : Tile) :
    m.membership t =
      if m.pictureAt? t.cell = t.id then (t.id.map r.groupsForTile).getD ∅ else ∅ := by
  unfold membership pictureAt?
  -- Where neither the cell nor the tile has a picture, both sides have no groups.
  cases hp : m.placement? t.cell with
  | none => cases t.id <;> simp
  | some p =>
    dsimp only
    rw [h t.cell p hp]
    cases t.id with
    | none => simp
    | some id => by_cases hid : id = p.id <;> simp [hid, eq_comm]

/-- Two groups that cover the same pictures have the same tiles. -/
theorem SamePictures.contains_membership (h : m.SamePictures m') (hm : m.GroupedBy r)
    (hm' : m'.GroupedBy r') {g g' : GroupId}
    (hg : ∀ picture,
      (r.groupsForTile picture).contains g = (r'.groupsForTile picture).contains g')
    (t : Tile) : (m.membership t).contains g = (m'.membership t).contains g' := by
  rw [hm.membership_eq, hm'.membership_eq, h.pictureAt?]
  split
  · cases t.id with
    | none => simp
    | some picture => exact hg picture
  · simp

/-! ### Maps made of the same pictures -/

section

variable (columns rows tileWidth tileHeight : UInt32) (tiles : Array (Option TileId))

theorem placement?_place (r : RuleSet) (cell : Cell) :
    (TileMap.mk columns rows tileWidth tileHeight (tiles.map (place r))).placement? cell =
      place r (((TileMap.mk columns rows tileWidth tileHeight #[]).index? cell).bind fun i =>
        (tiles[i]?).join) := by
  -- Where a cell is kept does not depend on what is kept.
  show ((TileMap.mk columns rows tileWidth tileHeight #[]).index? cell).bind _ = _
  cases (TileMap.mk columns rows tileWidth tileHeight #[]).index? cell with
  | none => rfl
  | some i =>
    simp only [Option.bind_some, Array.getElem?_map]
    cases tiles[i]? with
    | none => rfl
    | some tile => rfl

/-- Two rule sets make maps of the same pictures, or the same fault. -/
theorem make_cases (r r' : RuleSet) :
    (∃ fault, make columns rows tileWidth tileHeight tiles r = .error fault ∧
      make columns rows tileWidth tileHeight tiles r' = .error fault) ∨
    ∃ m m', make columns rows tileWidth tileHeight tiles r = .ok m ∧
      make columns rows tileWidth tileHeight tiles r' = .ok m' ∧
      m.SamePictures m' ∧ m.GroupedBy r ∧ m'.GroupedBy r' := by
  have hgrouped : ∀ r : RuleSet,
      (TileMap.mk columns rows tileWidth tileHeight (tiles.map (place r))).GroupedBy r := by
    intro r cell p hp
    rw [placement?_place] at hp
    obtain ⟨id, _, heq⟩ := Option.map_eq_some_iff.mp hp
    rw [← heq]
  unfold make
  dsimp only
  split
  · exact .inl ⟨_, rfl, rfl⟩
  · split
    · exact .inl ⟨_, rfl, rfl⟩
    · refine .inr ⟨_, _, rfl, rfl, ⟨rfl, rfl, fun cell => ?_⟩, hgrouped r, hgrouped r'⟩
      simp only [TileMap.pictureAt?, placement?_place, place, Option.map_map]
      rfl

end

end TileMap

/-! ### Maps and rule sets -/

/-- Two categories, each with the resolver of its rule set, find the same on the maps that the rule
    sets make of any pictures. -/
def Category.SameOnMaps (c c' : Category) (r r' : RuleSet) : Prop :=
  ∀ columns rows tileWidth tileHeight tiles lookback old new,
    (TileMap.make columns rows tileWidth tileHeight tiles r).map
        (fun m => (Resolver.mk r lookback).resolve c old new m.toGrid) =
      (TileMap.make columns rows tileWidth tileHeight tiles r').map
        (fun m => (Resolver.mk r' lookback).resolve c' old new m.toGrid)

theorem Category.SameOnMaps.of_resolve {c c' : Category} {r r' : RuleSet}
    (h : ∀ {m m' : TileMap}, m.SamePictures m' → m.GroupedBy r → m'.GroupedBy r' →
      ∀ lookback old new, (Resolver.mk r lookback).resolve c old new m.toGrid =
        (Resolver.mk r' lookback).resolve c' old new m'.toGrid) : c.SameOnMaps c' r r' := by
  intro columns rows tileWidth tileHeight tiles lookback old new
  obtain ⟨fault, hmake, hmake'⟩ | ⟨m, m', hmake, hmake', hsame, hm, hm'⟩ :=
    TileMap.make_cases columns rows tileWidth tileHeight tiles r r'
  · simp only [hmake, hmake', Except.map]
  · simp only [hmake, hmake', Except.map, h hsame hm hm' lookback old new]

theorem Category.SameOnMaps.resolve_eq {c c' : Category} {r r' : RuleSet}
    (h : c.SameOnMaps c' r r') {columns rows tileWidth tileHeight : UInt32}
    {tiles : Array (Option TileId)} {m m' : TileMap}
    (hm : TileMap.make columns rows tileWidth tileHeight tiles r = .ok m)
    (hm' : TileMap.make columns rows tileWidth tileHeight tiles r' = .ok m') (lookback : Lookback)
    (old new : Point) :
    (Resolver.mk r lookback).resolve c old new m.toGrid =
      (Resolver.mk r' lookback).resolve c' old new m'.toGrid := by
  have hall := h columns rows tileWidth tileHeight tiles lookback old new
  rw [hm, hm'] at hall
  exact Except.ok.inj hall

end Terrain
