import Terrain.Resolver.Basic

/-! ## Walking

A body that moves by a constant velocity and is stopped by what its test points run into. -/

namespace Terrain

/-- One step of a walk. -/
structure Tick where
  /-- Where the body is after the step. -/
  position : Point
  /-- What the test points found, in the order in which they were asked. -/
  found : List (CategoryId × Contact)
  deriving DecidableEq, Inhabited

namespace Resolver

/-- Moves a body by what each of its test points found, one after the other. Unknown categories
    do not move it. -/
def settle (r : Resolver) (found : List (CategoryId × Contact)) (position : Point) : Point :=
  found.foldl (fun p (id, contact) =>
    match r.rules.category? id with
    | some c => c.apply contact p
    | none => p) position

/-- One step: all test points are asked once for the same move, and then the body is moved by
    each of the answers. -/
def tick (r : Resolver) (ids : List CategoryId) (velocity : Point) (grid : Grid)
    (position : Point) : Tick :=
  let moved := position + velocity
  let found := r.resolveAll ids position moved grid
  ⟨r.settle found moved, found⟩

/-- The steps of a walk. -/
def walk (r : Resolver) (ids : List CategoryId) (velocity : Point) (grid : Grid) :
    Nat → Point → List Tick
  | 0, _ => []
  | n + 1, position =>
    let t := r.tick ids velocity grid position
    t :: r.walk ids velocity grid n t.position

end Resolver
end Terrain
