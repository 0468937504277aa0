import Terrain.Formula

/-! ## Rule sets

Rules ready for use: every reference is a place in one of three lists. A rule set carries an
identity, and so does each of its categories, so that a category is never resolved with the rules
of another set. -/

namespace Terrain

/-- The place of a formula in its rule set. It is kept in 32 bits, so a rule set has at most 2^32
    formulas. -/
structure FormulaId where
  index : Nat
  deriving DecidableEq, Inhabited

/-- The place of a category in its rule set, kept in 32 bits too: there are at most 2^32
    categories. -/
structure CategoryId where
  index : Nat
  deriving DecidableEq, Inhabited

/-- The identity of one construction of a rule set. Copies share it. -/
structure RuleSetId where
  serial : Nat
  deriving DecidableEq, Inhabited

/-- A named set of tiles with the formulas that they share, the first match first. -/
structure Group where
  name : String
  tiles : List TileSpan
  formulas : List FormulaId
  deriving DecidableEq, Inhabited

/-- Whether a picture belongs to the group. -/
def Group.containsTile (g : Group) (tile : TileId) : Bool := g.tiles.any (·.contains tile)

/-- A test point of a moving body, with the groups that concern it. -/
structure Category where
  name : String
  axis : Axis
  offsetX : Int32
  offsetY : Int32
  /-- Without repetition, in the order of first mention. -/
  groups : List GroupId
  /-- The same groups as a set. -/
  mask : GroupSet
  /-- The formulas of those groups without repetition, group by group. -/
  formulas : List FormulaId
  /-- The rule set that the category belongs to. -/
  rules : RuleSetId
  deriving DecidableEq, Inhabited

/-- The place of the test point on the body. -/
def Category.offset (c : Category) : Point :=
  ⟨.ofInt c.offsetX.toInt, .ofInt c.offsetY.toInt⟩

/-- A checked set of rules. -/
structure RuleSet where
  id : RuleSetId
  formulas : List Formula
  groups : List Group
  categories : List Category
  deriving DecidableEq, Inhabited

/-- How much a rule set holds. -/
structure RuleStats where
  formulas : Nat
  groups : Nat
  categories : Nat
  /-- Formulas that some neighbour can switch off. -/
  constrained : Nat
  deriving DecidableEq, Inhabited

namespace RuleSet

/-- The rule set with no rules. -/
def empty (id : RuleSetId) : RuleSet := ⟨id, [], [], []⟩

/-- The formula of a name. -/
def formulaId? (r : RuleSet) (name : String) : Option FormulaId :=
  (r.formulas.findIdx? (·.name == name)).map FormulaId.mk

/-- The group of a name. -/
def groupId? (r : RuleSet) (name : String) : Option GroupId :=
  (r.groups.findIdx? (·.name == name)).map GroupId.mk

/-- The category of a name. -/
def categoryId? (r : RuleSet) (name : String) : Option CategoryId :=
  (r.categories.findIdx? (·.name == name)).map CategoryId.mk

/-- The formula at a place. -/
def formula? (r : RuleSet) (f : FormulaId) : Option Formula := r.formulas[f.index]?

/-- The group at a place. -/
def group? (r : RuleSet) (g : GroupId) : Option Group := r.groups[g.index]?

/-- The category at a place. -/
def category? (r : RuleSet) (c : CategoryId) : Option Category := r.categories[c.index]?

/-- The category of a name. -/
def categoryNamed? (r : RuleSet) (name : String) : Option Category :=
  (r.categoryId? name).bind r.category?

/-- The formulas of a group, in the order of the group. -/
def formulasOf (r : RuleSet) (g : GroupId) : List Formula :=
  match r.group? g with
  | some group => group.formulas.filterMap r.formula?
  | none => []

/-- All groups that a picture belongs to. -/
def groupsForTile (r : RuleSet) (tile : TileId) : GroupSet :=
  .ofList ((r.groups.zipIdx.filter fun (g, _) => g.containsTile tile).map fun (_, i) => ⟨i⟩)

/-- How much the rule set holds. -/
def stats (r : RuleSet) : RuleStats where
  formulas := r.formulas.length
  groups := r.groups.length
  categories := r.categories.length
  constrained := r.formulas.countP fun f => !f.constraint.isUnconstrained

end RuleSet
end Terrain
