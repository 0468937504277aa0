import Terrain.Formula

/-! ## Drafts

Rules as an author writes them: every reference is a name, and nothing has been checked. -/

namespace Terrain

/-- A formula whose constraint lists groups by name. A direction may be listed with no groups. -/
structure FormulaDraft where
  name : String
  zone : Zone
  line : Line
  blocked : Compass (Option (List String))
  deriving DecidableEq

namespace FormulaDraft

/-- A formula that nothing switches off. -/
def new (name : String) (zone : Zone) (line : Line) : FormulaDraft := ⟨name, zone, line, .fill none⟩

instance : Inhabited FormulaDraft := ⟨new default default default⟩

/-- The group names listed in a direction. -/
def blockedAt (f : FormulaDraft) (o : Orientation) : List String := (f.blocked.get o).getD []

/-- Switches the formula off when the neighbour in a direction belongs to a group. -/
def blockedBy (f : FormulaDraft) (o : Orientation) (group : String) : FormulaDraft :=
  { f with blocked := f.blocked.set o (some (f.blockedAt o ++ [group])) }

end FormulaDraft

/-- A named set of tiles with the formulas that they share, the first match first. -/
structure GroupDraft where
  name : String
  tiles : List TileSpan
  formulas : List String
  deriving DecidableEq, Inhabited

/-- A test point of a moving body: the axis that it tests, its place on the body, and the groups
    that concern it. -/
structure CategoryDraft where
  name : String
  axis : Axis
  offsetX : Int32
  offsetY : Int32
  groups : List String
  deriving DecidableEq, Inhabited

/-- A complete set of rules as written. -/
structure Draft where
  formulas : List FormulaDraft
  groups : List GroupDraft
  categories : List CategoryDraft
  deriving DecidableEq, Inhabited

/-! ### Numeric agreement

Two drafts agree when all their parts are equal and their coefficients are numerically equal. A
draft with a NaN agrees with none, itself included. -/

/-- Numeric agreement of lines. -/
def Line.agrees (l k : Line) : Bool := l.slope.numEq k.slope && l.intercept.numEq k.intercept

/-- Numeric agreement of formulas. -/
def FormulaDraft.agrees (f g : FormulaDraft) : Bool :=
  f.name == g.name && f.zone == g.zone && f.line.agrees g.line && f.blocked == g.blocked

/-- Numeric agreement of drafts. -/
def Draft.agrees (d e : Draft) : Bool :=
  d.formulas.length == e.formulas.length &&
    (d.formulas.zip e.formulas).all (fun (f, g) => f.agrees g) &&
    d.groups == e.groups && d.categories == e.categories

end Terrain
