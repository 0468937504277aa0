import Terrain.Formula
import Terrain.Grid.Basic

/-! ## Neighbourhoods

The groups around one cell, asked of the grid only when a constraint needs them and kept from then
on. The state is passed from question to question. -/

namespace Terrain

/-- A cell with the groups known around it. -/
structure Neighborhood where
  center : Cell
  known : Compass (Option GroupSet)

namespace Neighborhood

/-- The neighbourhood of a tile whose own groups are known. -/
def around (tile : Tile) (own : GroupSet) : Neighborhood :=
  ⟨tile.cell, (Compass.fill none).set .center (some own)⟩

/-- The groups in a direction, from the grid; none past the last address. -/
def lookup (grid : Grid) (center : Cell) (o : Orientation) : GroupSet :=
  ((center.neighbor? o).map grid.groupsAt).getD ∅

/-- The groups in a direction, from the grid only the first time. -/
def groups (grid : Grid) (n : Neighborhood) (o : Orientation) : GroupSet × Neighborhood :=
  match n.known.get o with
  | some found => (found, n)
  | none =>
    let found := lookup grid n.center o
    (found, { n with known := n.known.set o (some found) })

/-- Whether a neighbour in one of the listed directions switches the formula off. Directions
    without blocking groups are not looked at, nor any after the first that blocks. -/
def blocksIn (grid : Grid) (c : Constraint) : Neighborhood → List Orientation → Bool × Neighborhood
  | n, [] => (false, n)
  | n, o :: rest =>
    if (c.blockers.get o).isEmpty then blocksIn grid c n rest
    else
      let (found, n) := n.groups grid o
      if c.isBlocked o found then (true, n) else blocksIn grid c n rest

/-- Whether a neighbour switches the formula off. -/
def suppresses (grid : Grid) (n : Neighborhood) (f : Formula) : Bool × Neighborhood :=
  if f.constraint.isUnconstrained then (false, n) else blocksIn grid f.constraint n Orientation.all

end Neighborhood
end Terrain
