import Terrain.Binary64.Basic

/-! ## The plane

World coordinates: `x` grows to the right and `y` grows downward. -/

namespace Terrain

/-- A coordinate axis. -/
inductive Axis where
  | x
  | y
  deriving DecidableEq, Inhabited

namespace Axis

/-- The written name. -/
def name : Axis → String
  | .x => "X"
  | .y => "Y"

/-- The axis of a written name. -/
def ofName? : String → Option Axis
  | "X" => some .x
  | "Y" => some .y
  | _ => none

theorem ofName?_name (a : Axis) : ofName? a.name = some a := by
  cases a <;> rfl

end Axis

/-- A point, or a displacement, in world units. -/
@[ext] structure Point where
  x : Binary64
  y : Binary64
  deriving DecidableEq, Inhabited

namespace Point

instance : Add Point := ⟨fun p q => ⟨p.x + q.x, p.y + q.y⟩⟩
instance : Sub Point := ⟨fun p q => ⟨p.x - q.x, p.y - q.y⟩⟩

/-- The point moved to `value` along one axis. -/
def along (p : Point) : Axis → Binary64 → Point
  | .x, value => { p with x := value }
  | .y, value => { p with y := value }

/-- The coordinate on an axis. -/
def on (p : Point) : Axis → Binary64
  | .x => p.x
  | .y => p.y

end Point
end Terrain
