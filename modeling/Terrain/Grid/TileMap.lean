import Terrain.Grid.Basic
import Terrain.RuleSet.Basic

/-! ## Tile maps

A rectangular map of one row after the other. The groups of a picture are looked up once, with
the rules at hand when it is placed, and kept with it. -/

namespace Terrain

/-- A picture on the map with its groups. -/
structure Placement where
  id : TileId
  groups : GroupSet
  deriving DecidableEq, Inhabited

/-- A rectangular map of tiles of one size. -/
structure TileMap where
  columns : UInt32
  rows : UInt32
  tileWidth : UInt32
  tileHeight : UInt32
  /-- Row by row, `columns` cells each. -/
  cells : Array (Option Placement)
  deriving DecidableEq, Inhabited

namespace TileMap

/-- The content of a cell that is given a picture, or none. -/
def place (rules : RuleSet) (tile : Option TileId) : Option Placement :=
  tile.map fun id => ⟨id, rules.groupsForTile id⟩

/-- The map that holds the listed pictures row by row. The tile size is checked before the number
    of pictures. -/
def make (columns rows tileWidth tileHeight : UInt32) (tiles : Array (Option TileId))
    (rules : RuleSet) : Except Fault TileMap :=
  let expected := columns.toNat * rows.toNat
  if tileWidth = 0 ∨ tileHeight = 0 then .error (.zeroTileSize tileWidth tileHeight)
  else if tiles.size ≠ expected then .error (.gridSize expected tiles.size)
  else .ok ⟨columns, rows, tileWidth, tileHeight, tiles.map (place rules)⟩

/-- The map of a size with no pictures. -/
def empty (columns rows tileWidth tileHeight : UInt32) : Except Fault TileMap :=
  if tileWidth = 0 ∨ tileHeight = 0 then .error (.zeroTileSize tileWidth tileHeight)
  else .ok ⟨columns, rows, tileWidth, tileHeight,
    Array.replicate (columns.toNat * rows.toNat) none⟩

/-- Where a cell is kept, if it is on the map. -/
def index? (m : TileMap) (c : Cell) : Option Nat :=
  let x := c.x.toInt
  let y := c.y.toInt
  if 0 ≤ x ∧ x < m.columns.toNat ∧ 0 ≤ y ∧ y < m.rows.toNat then
    some (y.toNat * m.columns.toNat + x.toNat)
  else none

/-- What is placed in a cell. -/
def placement? (m : TileMap) (c : Cell) : Option Placement := do
  let i ← m.index? c
  (m.cells[i]?).join

/-- Places a picture in a cell or clears it; nothing if the cell is outside the map. -/
def setTile? (m : TileMap) (c : Cell) (tile : Option TileId) (rules : RuleSet) : Option TileMap :=
  (m.index? c).map fun i => { m with cells := m.cells.setIfInBounds i (place rules tile) }

/-- The tile in a cell. -/
def tileAt (m : TileMap) (c : Cell) : Option Tile :=
  (m.placement? c).map fun p => ⟨some p.id, c, m.tileWidth, m.tileHeight⟩

/-- The groups kept with a tile. A tile that is no longer where it was has none. -/
def membership (m : TileMap) (t : Tile) : GroupSet :=
  match m.placement? t.cell with
  -- The cell may hold another picture by now.
  | some p => if t.id = some p.id then p.groups else ∅
  | none => ∅

/-- The map as a grid. -/
def toGrid (m : TileMap) : Grid := ⟨m.tileAt, m.membership, m.tileWidth, m.tileHeight⟩

end TileMap
end Terrain
