import Terrain.Resolver.Contact
import Terrain.Resolver.Neighborhood

/-! ## Resolving

The resolver answers for one moving test point at a time: it finds the cell of the new position,
tries the formulas of the tile there in a fixed order, and may look back once into the cell that
the point came from. It never fails; whatever cannot be looked at is a miss. -/

namespace Terrain

/-- When to look back into the old cell after a miss in the new one. -/
inductive Lookback where
  | never
  /-- When the cells differ along the tested axis. -/
  | axisChange
  /-- When the cells differ. -/
  | anyChange
  deriving DecidableEq

instance : Inhabited Lookback := ⟨.axisChange⟩

namespace Lookback

/-- The written name. -/
def name : Lookback → String
  | .never => "Disabled"
  | .axisChange => "AxisCellChange"
  | .anyChange => "AnyCellChange"

/-- The policy of a written name. -/
def ofName? : String → Option Lookback
  | "Disabled" => some .never
  | "AxisCellChange" => some .axisChange
  | "AnyCellChange" => some .anyChange
  | _ => none

theorem ofName?_name (l : Lookback) : ofName? l.name = some l := by
  cases l <;> rfl

/-- Whether the policy looks back from a new cell to an old one. -/
def applies (l : Lookback) (axis : Axis) (old new : Cell) : Bool :=
  match l with
  | .never => false
  | .axisChange => old.on axis != new.on axis
  | .anyChange => old != new

end Lookback

/-- Rules with a lookback policy. -/
structure Resolver where
  rules : RuleSet
  lookback : Lookback
  deriving DecidableEq, Inhabited

namespace Resolver

/-- The value of the first formula that writes the axis, covers the pixel, is not switched off by
    a neighbour and gives a finite value. -/
def scan (grid : Grid) (axis : Axis) (p : Pixel) : Neighborhood → List Formula → Option Binary64
  | _, [] => none
  | n, f :: rest =>
    if f.zone.axis = axis ∧ f.appliesAt p then
      let (suppressed, n) := n.suppresses grid f
      let value := f.valueAt p
      if !suppressed && value.isFinite then some value else scan grid axis p n rest
    else scan grid axis p n rest

/-- The formulas that concern a category in a tile of the given groups: group by group in the
    order of the category. -/
def candidates (r : Resolver) (c : Category) (groups : GroupSet) : List Formula :=
  (c.groups.filter groups.contains).flatMap r.rules.formulasOf

/-- What the first matching formula of a tile says for the pixel under `p`. -/
def probe (r : Resolver) (c : Category) (tile : Tile) (p : Point) (grid : Grid) : Option Contact :=
  let own := grid.membership tile
  if own.intersects c.mask then
    (scan grid c.axis (tile.pixelAt p) (.around tile own) (r.candidates c own)).map
      (.hit c.axis tile)
  else none

/-- The tile to look back into, if the policy asks for it and there is one. -/
def previousTile? (r : Resolver) (c : Category) (old : Point) (cell : Cell) (grid : Grid) :
    Option Tile := do
  let oldCell ← Cell.containing? old grid.tileWidth grid.tileHeight
  if r.lookback.applies c.axis oldCell cell then grid.tileAt oldCell else none

/-- What a test point finds that has moved from `old` to `new`, both counted at the point
    itself. -/
def resolveAt (r : Resolver) (c : Category) (old new : Point) (grid : Grid) : Contact :=
  match Cell.containing? new grid.tileWidth grid.tileHeight with
  | none => .miss (.vacant ⟨0, 0⟩ grid.tileWidth grid.tileHeight)
  | some cell =>
    match grid.tileAt cell with
    | none => .miss (.vacant cell grid.tileWidth grid.tileHeight)
    | some tile =>
      match r.probe c tile new grid with
      | some found => found
      | none =>
        match r.previousTile? c old cell grid with
        -- A miss after looking back names the cell looked back into.
        | some previous => (r.probe c previous new grid).getD (.miss previous)
        | none => .miss tile

/-- What the test point of a category finds when the body has moved from `old` to `new`. A grid
    with cells of no size and a category of another rule set find nothing. -/
def resolve (r : Resolver) (c : Category) (old new : Point) (grid : Grid) : Contact :=
  if grid.tileWidth = 0 ∨ grid.tileHeight = 0 ∨ c.rules ≠ r.rules.id then
    .miss (.vacant ⟨0, 0⟩ grid.tileWidth grid.tileHeight)
  else r.resolveAt c (old + c.offset) (new + c.offset) grid

/-- What the test points of several categories find, in the given order and all for the same
    move. An unknown category finds nothing. -/
def resolveAll (r : Resolver) (ids : List CategoryId) (old new : Point) (grid : Grid) :
    List (CategoryId × Contact) :=
  ids.map fun id =>
    (id, match r.rules.category? id with
      | some c => r.resolve c old new grid
      | none => .miss (.vacant ⟨0, 0⟩ grid.tileWidth grid.tileHeight))

end Resolver
end Terrain
