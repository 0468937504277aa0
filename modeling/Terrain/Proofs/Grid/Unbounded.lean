import Mathlib.Data.List.Basic
import Terrain.Grid.Field
import Terrain.Proofs.Grid.Edits
import Terrain.Proofs.Grid.Pictures

/-! ## Maps and fields

A map looks up the groups of a picture when the picture is placed and keeps them. A field looks
them up whenever it is asked, and has no edges. A move cannot tell the two apart, as long as all
pictures of the map were placed under the same rules: it asks for the groups of a tile only right
after the grid has shown it that tile. -/

namespace Terrain

/-! ### Grids that answer alike -/

/-- The same tiles, and for each tile that is in a cell the same groups. For other tiles, such as one
    that has been in a cell before, the groups may differ. -/
structure Grid.AnswersAlike (grid grid' : Grid) : Prop extends grid.SameTiles grid' where
  membership : ∀ {cell tile}, grid.tileAt cell = some tile →
    grid.membership tile = grid'.membership tile

namespace Grid.AnswersAlike

variable {grid grid' : Grid} (h : grid.AnswersAlike grid')

include h

theorem groupsAt_eq (cell : Cell) : grid.groupsAt cell = grid'.groupsAt cell := by
  unfold groupsAt
  rw [← h.tileAt cell]
  cases htile : grid.tileAt cell with
  | none => rfl
  | some tile =>
    simp only [Option.map_some, h.membership htile]

theorem fresh_eq (center : Cell) (own : GroupSet) :
    Neighborhood.fresh grid center own = Neighborhood.fresh grid' center own := by
  funext o
  simp only [Neighborhood.fresh, Neighborhood.lookup, funext h.groupsAt_eq]

theorem probe_eq (r : Resolver) (c : Category) {cell : Cell} {tile : Tile}
    (htile : grid.tileAt cell = some tile) (p : Point) :
    r.probe c tile p grid = r.probe c tile p grid' := by
  have hown := h.membership htile
  unfold Resolver.probe
  dsimp only
  rw [← hown]
  -- The search asks around the tile, where the grid answers for tiles that it holds itself.
  rw [Resolver.scan_eq_find? _ _ (Neighborhood.around_consistent grid tile _),
    Resolver.scan_eq_find? _ _ (Neighborhood.around_consistent grid' tile _), h.fresh_eq]

theorem resolve_eq (r : Resolver) (c : Category) (old new : Point) :
    r.resolve c old new grid = r.resolve c old new grid' :=
  Resolver.resolve_congr rfl rfl rfl rfl Iff.rfl h.tileWidth h.tileHeight h.tileAt
    (fun _ _ p htile => h.probe_eq r c htile p) old new

theorem resolveAll_eq (r : Resolver) (ids : List CategoryId) (old new : Point) :
    r.resolveAll ids old new grid = r.resolveAll ids old new grid' := by
  simp only [Resolver.resolveAll, h.resolve_eq, h.tileWidth, h.tileHeight]

end Grid.AnswersAlike

/-! ### Maps filled under one rule set -/

namespace TileMap

variable {m : TileMap} {r : RuleSet}

/-- The map was made of pictures or without any, and has been edited since then, always under the
    same rules. An edit may be refused. -/
inductive FilledUnder (r : RuleSet) : TileMap → Prop
  | make {columns rows tileWidth tileHeight : UInt32} {tiles : Array (Option TileId)} {m : TileMap}
      (h : make columns rows tileWidth tileHeight tiles r = .ok m) : FilledUnder r m
  | empty {columns rows tileWidth tileHeight : UInt32} {m : TileMap}
      (h : empty columns rows tileWidth tileHeight = .ok m) : FilledUnder r m
  | edit {m : TileMap} (h : FilledUnder r m) (cell : Cell) (tile : Option TileId) :
      FilledUnder r (m.edit ⟨cell, tile, r⟩)

/-- Every picture was placed under the rules. -/
def Content.Under (content : Content) (r : RuleSet) : Prop :=
  ∀ {cell id rules}, content cell = some (id, rules) → rules = r

theorem Content.Under.write {content : Content} (h : content.Under r) (cell : Cell)
    (tile : Option TileId) : (content.write ⟨cell, tile, r⟩).Under r := by
  intro c id rules hc
  unfold Content.write at hc
  split at hc
  · obtain ⟨_, _, heq⟩ := Option.map_eq_some_iff.mp hc
    cases heq
    rfl
  · exact h hc

theorem FilledUnder.shows (h : m.FilledUnder r) : ∃ columns rows tileWidth tileHeight content,
    m.Shows columns rows tileWidth tileHeight content ∧ content.Under r := by
  induction h with
  | make h =>
    refine ⟨_, _, _, _, _, (Starts.make h).shows, fun hc => ?_⟩
    obtain ⟨_, _, heq⟩ := Option.map_eq_some_iff.mp hc
    cases heq
    rfl
  | empty h => exact ⟨_, _, _, _, _, (Starts.empty h).shows, fun hc => nomatch hc⟩
  | @edit m h cell tile ih =>
    obtain ⟨columns, rows, tileWidth, tileHeight, content, hshows, hunder⟩ := ih
    unfold TileMap.edit
    cases he : m.setTile? cell tile r with
    | none => exact ⟨_, _, _, _, _, hshows, hunder⟩
    | some m' =>
      exact ⟨_, _, _, _, _, hshows.setTile? (e := ⟨cell, tile, r⟩) he, hunder.write cell tile⟩

/-- What is placed under the rules keeps the groups that the rules have for it. -/
theorem FilledUnder.groupedBy (h : m.FilledUnder r) : m.GroupedBy r := by
  obtain ⟨columns, rows, tileWidth, tileHeight, content, hshows, hunder⟩ := h.shows
  intro cell p hp
  obtain ⟨i, hi, _⟩ := Option.bind_eq_some_iff.mp hp
  have hcell : cell.Within columns rows := by
    rw [← hshows.columns_eq, ← hshows.rows_eq]
    exact (index?_eq_some_iff.mp hi).1
  rw [hshows.placement?_eq cell hcell] at hp
  obtain ⟨⟨id, rules⟩, hcontent, heq⟩ := Option.map_eq_some_iff.mp hp
  cases heq
  rw [hunder hcontent]

end TileMap

/-! ### The field of a map -/

/-- The field has the pictures of the map in the same cells and nothing elsewhere, its tiles have
    the same size, and it looks their groups up in the rules. -/
structure Field.Mirrors (f : Field) (m : TileMap) (r : RuleSet) : Prop where
  tileWidth : f.tileWidth = m.tileWidth
  tileHeight : f.tileHeight = m.tileHeight
  shownWidth : f.shownWidth = m.tileWidth
  shownHeight : f.shownHeight = m.tileHeight
  idAt : ∀ cell, f.idAt cell = m.pictureAt? cell
  rules : f.rules = r

theorem Field.Mirrors.answersAlike {m : TileMap} {r : RuleSet} {f : Field} (hf : f.Mirrors m r)
    (hm : m.GroupedBy r) : m.toGrid.AnswersAlike f.toGrid where
  tileWidth := hf.tileWidth.symm
  tileHeight := hf.tileHeight.symm
  tileAt := by
    intro cell
    show m.tileAt cell = f.tileAt cell
    rw [m.tileAt_eq_map, Field.tileAt, hf.idAt, hf.shownWidth, hf.shownHeight]
  membership := by
    intro cell tile htile
    obtain ⟨id, hid, rfl⟩ := Option.map_eq_some_iff.mp ((m.tileAt_eq_map cell).symm.trans htile)
    refine (hm.membership_eq _).trans ?_
    rw [if_pos hid, ← hf.rules]
    rfl

namespace TileMap

/-- The addresses of a map. A map may have more columns or rows than can be addressed. -/
def addresses (m : TileMap) : List Cell :=
  (List.range (min m.rows.toNat (2 ^ 31))).flatMap fun (y : Nat) =>
    (List.range (min m.columns.toNat (2 ^ 31))).map fun (x : Nat) => ⟨.ofInt x, .ofInt y⟩

/-- The field of the pictures of a map. -/
def unbounded (m : TileMap) (r : RuleSet) : Field :=
  ⟨m.tileWidth, m.tileHeight, m.tileWidth, m.tileHeight, none,
    m.addresses.map fun cell => (cell, m.pictureAt? cell), r⟩

theorem mem_addresses {m : TileMap} {cell : Cell} (h : cell.Within m.columns m.rows) :
    cell ∈ m.addresses := by
  obtain ⟨hx, hx', hy, hy'⟩ := h
  have hxlt := cell.x.toInt_lt
  have hylt := cell.y.toInt_lt
  have hcolumn : cell.x.toInt.toNat < min m.columns.toNat (2 ^ 31) := by omega
  have hrow : cell.y.toInt.toNat < min m.rows.toNat (2 ^ 31) := by omega
  refine List.mem_flatMap.mpr ⟨_, List.mem_range.mpr hrow, ?_⟩
  refine List.mem_map.mpr ⟨_, List.mem_range.mpr hcolumn, ?_⟩
  rw [Int.toNat_of_nonneg hx, Int.toNat_of_nonneg hy, Int32.ofInt_toInt, Int32.ofInt_toInt]

/-- A table of the values in some cells gives all values, if there are none in other cells. -/
theorem lookup_graph_getD {cells : List Cell} {f : Cell → Option TileId}
    (h : ∀ cell, cell ∉ cells → f cell = none) (cell : Cell) :
    ((cells.map fun cell => (cell, f cell)).lookup cell).getD none = f cell := by
  by_cases hcell : cell ∈ cells
  · rw [List.lookup_graph _ hcell]
    rfl
  · have hlookup : (cells.map fun cell => (cell, f cell)).lookup cell = none := by
      rw [List.lookup_eq_none_iff]
      intro p hp
      obtain ⟨other, hother, rfl⟩ := List.mem_map.mp hp
      exact bne_iff_ne.mpr fun heq : cell = other => hcell (heq ▸ hother)
    rw [hlookup, h cell hcell]
    rfl

theorem unbounded_mirrors (m : TileMap) (r : RuleSet) : (m.unbounded r).Mirrors m r where
  tileWidth := rfl
  tileHeight := rfl
  shownWidth := rfl
  shownHeight := rfl
  idAt := by
    refine lookup_graph_getD fun cell hcell => ?_
    have houtside : m.index? cell = none :=
      index?_eq_none_iff.mpr fun h => hcell (mem_addresses h)
    simp [pictureAt?, placement?, houtside]
  rules := rfl

/-- On a map that is filled under one rule set, a move ends as it does on a field of the same
    pictures, and there is such a field. -/
theorem resolve_eq_on_field {m : TileMap} {r : RuleSet} (h : m.FilledUnder r) (lookback : Lookback)
    (old new : Point) :
    (∃ f : Field, f.Mirrors m r) ∧ ∀ f : Field, f.Mirrors m r →
      (∀ c, (Resolver.mk r lookback).resolve c old new m.toGrid =
        (Resolver.mk r lookback).resolve c old new f.toGrid) ∧
      ∀ ids, (Resolver.mk r lookback).resolveAll ids old new m.toGrid =
        (Resolver.mk r lookback).resolveAll ids old new f.toGrid := by
  refine ⟨⟨m.unbounded r, m.unbounded_mirrors r⟩, fun f hf => ?_⟩
  have halike := hf.answersAlike h.groupedBy
  constructor
  · intro c
    exact halike.resolve_eq _ c old new
  · intro ids
    exact halike.resolveAll_eq _ ids old new

/-- A tile of the ledge and a block above it are placed on an empty map. A third edit is refused.
    The block switches the floor off, on the map as on its field. -/
theorem resolve_eq_on_field_ledge :
    let rules := Draft.ledge.linked ⟨1⟩
    let feet : Category := ⟨"feet", .y, 0, 0, [⟨0⟩], ⟨1⟩, [⟨0⟩, ⟨1⟩], ⟨1⟩⟩
    let bare : TileMap := ⟨2, 2, 16, 16, Array.replicate 4 none⟩
    let m := ((bare.edit ⟨⟨1, 1⟩, some ⟨0, 1⟩, rules⟩).edit ⟨⟨1, 0⟩, some ⟨0, 2⟩, rules⟩).edit
      ⟨⟨-1, 0⟩, some ⟨0, 2⟩, rules⟩
    let f := m.unbounded rules
    let old : Point := ⟨.ofInt 24, .ofInt 20⟩
    let new : Point := ⟨.ofInt 24, .ofInt 31⟩
    m.FilledUnder rules ∧ f.Mirrors m rules ∧ feet ∈ rules.categories ∧
      (Resolver.mk rules .axisChange).resolve feet old new m.toGrid =
        ⟨none, some (.ofInt 28), ⟨some ⟨0, 1⟩, ⟨1, 1⟩, 16, 16⟩⟩ ∧
      (Resolver.mk rules .axisChange).resolve feet old new m.toGrid =
        (Resolver.mk rules .axisChange).resolve feet old new f.toGrid ∧
      (Resolver.mk rules .axisChange).resolveAll [⟨0⟩, ⟨1⟩] old new m.toGrid =
        (Resolver.mk rules .axisChange).resolveAll [⟨0⟩, ⟨1⟩] old new f.toGrid := by
  intro rules feet bare m f old new
  have hbare : FilledUnder rules bare := @FilledUnder.empty rules 2 2 16 16 bare rfl
  have hm : m.FilledUnder rules := ((hbare.edit _ _).edit _ _).edit _ _
  have hf : f.Mirrors m rules := m.unbounded_mirrors rules
  have hsame := (resolve_eq_on_field hm .axisChange old new).2 f hf
  refine ⟨hm, hf, ?_, ?_, hsame.1 feet, hsame.2 [⟨0⟩, ⟨1⟩]⟩
  · decide +kernel
  · decide +kernel

end TileMap
end Terrain
