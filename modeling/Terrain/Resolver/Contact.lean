import Terrain.RuleSet.Basic

/-! ## Contacts

The answer for one test point: the coordinate that blocks it, if any, and the last cell that was
looked at. -/

namespace Terrain

/-- What a test point ran into. -/
structure Contact where
  /-- The blocking `x`, when the point tests `x` and a formula matched. -/
  x : Option Binary64
  /-- The blocking `y`, when the point tests `y` and a formula matched. -/
  y : Option Binary64
  /-- The last cell that was looked at. -/
  tile : Tile
  deriving DecidableEq, Inhabited

namespace Contact

/-- No formula matched. -/
def miss (tile : Tile) : Contact := ⟨none, none, tile⟩

/-- A formula matched: `value` is counted from the corner of the tile. -/
def hit (axis : Axis) (tile : Tile) (value : Binary64) : Contact :=
  match axis with
  | .x => ⟨some (tile.origin.x + value), none, tile⟩
  | .y => ⟨none, some (tile.origin.y + value), tile⟩

/-- Whether a coordinate was found. -/
def isHit (c : Contact) : Bool := c.x.isSome || c.y.isSome

/-- Moves a test point to the coordinates found. -/
def apply (c : Contact) (p : Point) : Point := ⟨c.x.getD p.x, c.y.getD p.y⟩

end Contact

/-- Moves a body by what one of its test points ran into. -/
def Category.apply (c : Category) (found : Contact) (origin : Point) : Point :=
  found.apply (origin + c.offset) - c.offset

end Terrain
