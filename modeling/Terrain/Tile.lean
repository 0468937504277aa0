import Terrain.Cell

/-! ## Tiles

A tile is a picture from a numbered sheet, placed in a cell. The resolver works on cells, so a
tile record also describes a cell that holds no picture. -/

namespace Terrain

/-- Which picture: a sheet and an index on it. -/
structure TileId where
  sheet : UInt32
  index : UInt32
  deriving DecidableEq, Inhabited

/-- A stretch of pictures on one sheet: one of them, or all from the first to the last. -/
inductive TileSpan where
  | single (sheet index : UInt32)
  | run (sheet first last : UInt32)
  deriving DecidableEq, Inhabited

/-- Whether a span covers a picture; both ends of a run belong to it. -/
def TileSpan.contains : TileSpan → TileId → Bool
  | .single sheet index, tile => tile.sheet == sheet && tile.index == index
  | .run sheet first last, tile =>
    tile.sheet == sheet && decide (first ≤ tile.index) && decide (tile.index ≤ last)

/-- A cell as it was looked at: the picture in it, if any, its address and its size. -/
structure Tile where
  id : Option TileId
  cell : Cell
  width : UInt32
  height : UInt32
  deriving DecidableEq, Inhabited

namespace Tile

/-- A cell with no picture in it. -/
def vacant (cell : Cell) (width height : UInt32) : Tile := ⟨none, cell, width, height⟩

/-- Whether the cell holds no picture. -/
def isVacant (t : Tile) : Bool := t.id.isNone

/-- The top left corner in world units. -/
def origin (t : Tile) : Point where
  x := Binary64.ofInt t.cell.x.toInt * Binary64.ofInt t.width.toNat
  y := Binary64.ofInt t.cell.y.toInt * Binary64.ofInt t.height.toNat

/-- The last pixel of an extent. An empty extent counts as one pixel, and one that no signed word
    can count stops at the largest. -/
def lastPixel (extent : UInt32) : Int := min (max extent.toNat 1) (2 ^ 31 - 1) - 1

/-- One coordinate of a pixel: the distance from the corner without its fraction, moved into the
    tile. -/
def pixelCoordinate (distance : Binary64) (extent : UInt32) : Int :=
  max 0 (min (lastPixel extent) (distance.truncateWithin (-2 ^ 31) (2 ^ 31 - 1)))

/-- The pixel of a tile that is under a point, or the nearest one if the point is outside. -/
def pixelAt (t : Tile) (p : Point) : Pixel :=
  let d := p - t.origin
  ⟨pixelCoordinate d.x t.width, pixelCoordinate d.y t.height⟩

end Tile
end Terrain
