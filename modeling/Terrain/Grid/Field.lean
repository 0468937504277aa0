import Terrain.Grid.Basic
import Terrain.RuleSet.Basic

/-! ## Fields

A grid without edges: pictures in listed cells, and one filling for all others. Groups are looked
up whenever they are asked for. -/

namespace Terrain

/-- An unbounded grid. -/
structure Field where
  tileWidth : UInt32
  tileHeight : UInt32
  /-- The width written into the tiles, which may differ from the width of the cells. -/
  shownWidth : UInt32
  /-- The height written into the tiles. -/
  shownHeight : UInt32
  /-- The picture of every cell that is not listed. -/
  fill : Option TileId
  /-- Listed cells; of two entries for one cell the first counts. -/
  placed : List (Cell × Option TileId)
  /-- The rules that answer for groups. -/
  rules : RuleSet
  deriving DecidableEq, Inhabited

namespace Field

/-- The picture in a cell. -/
def idAt (f : Field) (c : Cell) : Option TileId := (f.placed.lookup c).getD f.fill

/-- The tile in a cell. -/
def tileAt (f : Field) (c : Cell) : Option Tile :=
  (f.idAt c).map fun id => ⟨some id, c, f.shownWidth, f.shownHeight⟩

/-- The groups of a tile. -/
def membership (f : Field) (t : Tile) : GroupSet := (t.id.map f.rules.groupsForTile).getD ∅

/-- The field as a grid. -/
def toGrid (f : Field) : Grid := ⟨f.tileAt, f.membership, f.tileWidth, f.tileHeight⟩

end Field
end Terrain
