import Terrain.Compass
import Terrain.Plane
import Terrain.Word

/-! ## Cells

The plane is cut into cells of one size, addressed by signed 32-bit columns and rows. A point has
a cell when both of its coordinates are finite and the column and the row are addressable. -/

namespace Terrain

/-- A grid address: column and row. -/
@[ext] structure Cell where
  x : Int32
  y : Int32
  deriving DecidableEq, Inhabited

/-- A pixel position inside a tile, counted from its top left corner. -/
@[ext] structure Pixel where
  x : Int
  y : Int
  deriving DecidableEq, Inhabited

namespace Pixel

/-- The coordinate on an axis. -/
def on (p : Pixel) : Axis → Int
  | .x => p.x
  | .y => p.y

end Pixel

namespace Cell

/-- The coordinate on an axis. -/
def on (c : Cell) : Axis → Int32
  | .x => c.x
  | .y => c.y

/-- The neighbour in a direction, unless its address would leave the 32-bit range. -/
def neighbor? (c : Cell) (o : Orientation) : Option Cell := do
  let x ← int32? (c.x.toInt + o.offset.1)
  let y ← int32? (c.y.toInt + o.offset.2)
  return ⟨x, y⟩

/-- The column or row that holds a coordinate, for cells of the given size. -/
def coordinate? (v : Binary64) (size : UInt32) : Option Int32 := do
  let n ← (v / Binary64.ofInt size.toNat).floor?
  int32? n

/-- The cell that holds a point. -/
def containing? (p : Point) (width height : UInt32) : Option Cell := do
  let x ← coordinate? p.x width
  let y ← coordinate? p.y height
  return ⟨x, y⟩

end Cell
end Terrain
