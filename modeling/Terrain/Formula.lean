import Terrain.Compass
import Terrain.Fault
import Terrain.Tile

/-! ## Formulas

A formula is the atomic rule of a tile: a zone of pixels where it applies, a line that gives the
blocking coordinate there, and a constraint that switches it off next to certain groups. -/

namespace Terrain

/-! ### Zones -/

/-- An inclusive rectangle of pixels, and the axis of the coordinate found in it. -/
structure Zone where
  axis : Axis
  minX : Int32
  maxX : Int32
  minY : Int32
  maxY : Int32
  deriving DecidableEq, Inhabited

namespace Zone

/-- Refuses bounds in the wrong order, `x` first. -/
def check (z : Zone) : Except Fault Unit :=
  if z.maxX < z.minX then .error (.invalidRange .x z.minX z.maxX)
  else if z.maxY < z.minY then .error (.invalidRange .y z.minY z.maxY)
  else .ok ()

/-- A zone with its bounds in order. -/
def make (axis : Axis) (minX maxX minY maxY : Int32) : Except Fault Zone := do
  let z : Zone := ⟨axis, minX, maxX, minY, maxY⟩
  z.check
  return z

/-- Whether a pixel lies in the zone, the bounds included. -/
def contains (z : Zone) (p : Pixel) : Bool :=
  decide (z.minX.toInt ≤ p.x) && decide (p.x ≤ z.maxX.toInt) &&
    decide (z.minY.toInt ≤ p.y) && decide (p.y ≤ z.maxY.toInt)

end Zone

/-! ### Lines -/

/-- The line `slope · t + intercept`. -/
structure Line where
  slope : Binary64
  intercept : Binary64
  deriving DecidableEq, Inhabited

namespace Line

/-- Refuses a coefficient that is no number or infinite, the slope first. -/
def check (l : Line) : Except Fault Unit :=
  if !l.slope.isFinite then .error (.nonFiniteCoefficient .slope l.slope)
  else if !l.intercept.isFinite then .error (.nonFiniteCoefficient .intercept l.intercept)
  else .ok ()

/-- A line with finite coefficients. -/
def make (slope intercept : Binary64) : Except Fault Line := do
  let l : Line := ⟨slope, intercept⟩
  l.check
  return l

/-- A flat line. -/
def flat (value : Binary64) : Except Fault Line := make (.zero false) value

/-- The height of the line at `t`; product and sum are rounded one after the other. -/
def eval (l : Line) (t : Binary64) : Binary64 := l.slope * t + l.intercept

end Line

/-! ### Constraints -/

/-- For each direction, the groups that switch a formula off when the neighbour there belongs to
    one of them. -/
structure Constraint where
  blockers : Compass GroupSet
  deriving DecidableEq

namespace Constraint

/-- The constraint that never applies. -/
def none : Constraint := ⟨.fill ∅⟩

instance : Inhabited Constraint := ⟨none⟩

/-- The constraint with more groups in one direction. -/
def block (c : Constraint) (o : Orientation) (groups : GroupSet) : Constraint :=
  ⟨c.blockers.set o (c.blockers.get o ∪ groups)⟩

/-- Whether a neighbour with these groups switches the formula off. -/
def isBlocked (c : Constraint) (o : Orientation) (neighbor : GroupSet) : Bool :=
  (c.blockers.get o).intersects neighbor

/-- Whether no direction has a blocking group. -/
def isUnconstrained (c : Constraint) : Bool :=
  Orientation.all.all fun o => (c.blockers.get o).isEmpty

end Constraint

/-! ### Formulas -/

/-- The atomic rule: where it applies, what it gives, and when it is switched off. -/
structure Formula where
  name : String
  zone : Zone
  line : Line
  constraint : Constraint
  deriving DecidableEq, Inhabited

namespace Formula

/-- Whether the formula covers a pixel. -/
def appliesAt (f : Formula) (p : Pixel) : Bool := f.zone.contains p

/-- What the line is evaluated at: a formula for `y` depends on `x`, and the other way round. -/
def inputAt (f : Formula) (p : Pixel) : Binary64 :=
  match f.zone.axis with
  | .x => .ofInt p.y
  | .y => .ofInt p.x

/-- The coordinate that blocks at a pixel, counted from the corner of the tile. -/
def valueAt (f : Formula) (p : Pixel) : Binary64 := f.line.eval (f.inputAt p)

end Formula
end Terrain
