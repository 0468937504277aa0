import Terrain.GroupSet
import Terrain.Tile

/-! ## Grids

What the resolver asks of a grid: the tile in a cell, the groups of a tile, and the size of a
cell. A grid is given by its answers, so any map can be one. -/

namespace Terrain

/-- A grid, by its answers. -/
structure Grid where
  /-- The tile in a cell; nothing for a hole or a cell outside the map. -/
  tileAt : Cell → Option Tile
  /-- The groups that a tile belongs to. -/
  membership : Tile → GroupSet
  /-- The width of a cell. The resolver finds nothing in cells of no width. -/
  tileWidth : UInt32
  /-- The height of a cell. The resolver finds nothing in cells of no height. -/
  tileHeight : UInt32

/-- The groups of the tile in a cell; none where there is no tile. -/
def Grid.groupsAt (g : Grid) (c : Cell) : GroupSet := ((g.tileAt c).map g.membership).getD ∅

end Terrain
