import Terrain.Session

/-! ## Registries

All rule sets of a program take their identities from one counter. A construction takes the next one
before it looks at the parts of its draft, and an identity that was taken by a construction that
fails later is lost. A copy keeps the identity that it has. -/

namespace Terrain

/-! ### Identities -/

/-- The counter of identities. -/
structure Counter where
  /-- The number of the next identity. -/
  next : UInt64
  deriving DecidableEq, Inhabited

namespace Counter

/-- The counter before the first identity. -/
def initial : Counter := ⟨1⟩

/-- The next identity. -/
def identity (c : Counter) : RuleSetId := ⟨c.next.toNat⟩

/-- The counter when the next identity has been taken. After the last number it starts again. -/
def advance (c : Counter) : Counter := ⟨c.next + 1⟩

end Counter

/-- Whether a draft takes an identity. One with too many groups is refused before. -/
def Draft.takesIdentity (d : Draft) : Bool := decide (d.groups.length ≤ GroupSet.capacity)

/-- Whether a construction takes an identity, also if it fails afterwards. A text that is not read as
    a draft takes none. -/
def RuleSource.takesIdentity : RuleSource → Bool
  | .nothing => true
  | .text source => (Draft.ofText? source).any Draft.takesIdentity
  | .draft d => d.takesIdentity

/-! ### Rule sets in use -/

/-- A rule set in use. -/
structure Held where
  rules : RuleSet
  /-- The number of the step that constructed it, or constructed what it is a copy of. No step asks
      for it. -/
  origin : Nat
  deriving DecidableEq, Inhabited

/-- The rule sets in use, in the order in which they came, and the counter. -/
structure Registry where
  counter : Counter
  /-- How many steps there have been. -/
  steps : Nat
  held : List Held
  deriving DecidableEq, Inhabited

namespace Registry

/-- What can be done with rule sets. -/
inductive Step where
  | construct (source : RuleSource)
  | copy (place : Nat)
  | drop (place : Nat)
  /-- A map without pictures is made under rules of its own, which are dropped at once. -/
  | emptyMap
  deriving DecidableEq, Inhabited

/-- Whether a step takes an identity. -/
def Step.takesIdentity : Step → Bool
  | .construct source => source.takesIdentity
  | .copy _ => false
  | .drop _ => false
  | .emptyMap => true

/-- The registry before the first step. -/
def initial : Registry := ⟨.initial, 0, []⟩

/-- The registry after a step. A construction that fails adds nothing, and neither does a copy of
    what is not there. -/
def step (g : Registry) (s : Step) : Registry where
  counter := if s.takesIdentity then g.counter.advance else g.counter
  steps := g.steps + 1
  held :=
    match s with
    | .construct source =>
      match source.load g.counter.identity with
      | .ok r => g.held ++ [⟨r, g.steps⟩]
      | .error _ => g.held
    | .copy place => g.held ++ g.held[place]?.toList
    | .drop place => g.held.eraseIdx place
    | .emptyMap => g.held

/-- The registry after a run of steps. -/
def run (g : Registry) (steps : List Step) : Registry := steps.foldl step g

end Registry
end Terrain
