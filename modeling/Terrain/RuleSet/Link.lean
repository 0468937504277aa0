import Terrain.Draft
import Terrain.RuleSet.Basic
import Terrain.RuleSet.NameMap

/-! ## Linking

Turns a draft into a rule set: checks every part and replaces every name by a place. The first
fault met ends the work, in this order: the number of groups, repeated group names, then formula
by formula, group by group and category by category. A reference may point forward. -/

namespace Terrain

/-! ### Entries with names -/

/-- Linked entries, with the map of their names. -/
structure Entries (α : Type) where
  list : List α
  names : NameMap

/-- Links entries one after the other, the first of them at a given place. An entry whose name was
    entered before is refused before its parts are looked at. -/
def linkEach {α β : Type} (nameOf : α → String) (repeated : String → Fault)
    (link : α → Except Fault β) : NameMap → Nat → List α → Except Fault (Entries β)
  | names, _, [] => .ok ⟨[], names⟩
  | names, place, a :: rest => do
    let names ← names.enter repeated (nameOf a) place
    let b ← link a
    let linked ← linkEach nameOf repeated link names (place + 1) rest
    return ⟨b :: linked.list, linked.names⟩

/-! ### References -/

/-- The group of a name that `owner` refers to. -/
def linkGroup (groups : NameMap) (owner name : String) : Except Fault GroupId :=
  match groups.get? name with
  | some i => .ok ⟨i⟩
  | none => .error (.unknownGroup owner name)

/-- The set of the groups that `owner` refers to. -/
def linkMask (groups : NameMap) (owner : String) (names : List String) : Except Fault GroupSet :=
  names.foldlM (fun mask name => do
    let g ← linkGroup groups owner name
    return mask.insert g) ∅

/-- The formula of a name that the group `owner` refers to. -/
def linkFormula (formulas : NameMap) (owner name : String) : Except Fault FormulaId :=
  match formulas.get? name with
  | some i => .ok ⟨i⟩
  | none => .error (.unknownFormula owner name)

/-! ### Formulas and groups -/

/-- Names the formula in a fault of one of its parts. -/
def Fault.within (name : String) : Except Fault Unit → Except Fault Unit
  | .error cause => .error (.inFormula name cause)
  | .ok () => .ok ()

/-- Checks the parts of a formula and links its constraint, direction by direction. -/
def FormulaDraft.link (groups : NameMap) (f : FormulaDraft) : Except Fault Formula := do
  Fault.within f.name f.zone.check
  Fault.within f.name f.line.check
  let blockers ← Orientation.all.mapM fun o => do
    let mask ← linkMask groups f.name (f.blockedAt o)
    return (o, mask)
  let constraint := blockers.foldl (fun c (o, mask) => c.block o mask) Constraint.none
  return ⟨f.name, f.zone, f.line, constraint⟩

/-- Refuses a run of pictures whose ends are in the wrong order. -/
def TileSpan.check (owner : String) : TileSpan → Except Fault Unit
  | .single .. => .ok ()
  | .run _ first last => if last < first then .error (.invalidTileSpan owner first last) else .ok ()

/-- Checks the spans of a group and links its formulas. -/
def GroupDraft.link (formulas : NameMap) (g : GroupDraft) : Except Fault Group := do
  g.tiles.forM (TileSpan.check g.name)
  let ids ← g.formulas.mapM (linkFormula formulas g.name)
  return ⟨g.name, g.tiles, ids⟩

/-! ### Categories -/

/-- A list with one more entry at its end, unless it has the entry already. -/
def addNew {α : Type} [DecidableEq α] (l : List α) (a : α) : List α :=
  if a ∈ l then l else l ++ [a]

/-- What a category has gathered so far. -/
structure Gathered where
  mask : GroupSet
  groups : List GroupId
  formulas : List FormulaId
  deriving DecidableEq

/-- The formulas that a group of a list has. -/
def formulaIdsAt (groups : List Group) (g : GroupId) : List FormulaId :=
  (groups[g.index]?.map (·.formulas)).getD []

/-- Nothing gathered yet. -/
def Gathered.none : Gathered := ⟨∅, [], []⟩

/-- Adds a group and those of its formulas that are new. A group that was added before is left
    out. -/
def Gathered.add (groups : List Group) (s : Gathered) (g : GroupId) : Gathered :=
  if s.mask.contains g then s
  else
    { mask := s.mask.insert g
      groups := s.groups ++ [g]
      formulas := (formulaIdsAt groups g).foldl addNew s.formulas }

/-- The category with what it has gathered. -/
def CategoryDraft.complete (c : CategoryDraft) (id : RuleSetId) (s : Gathered) : Category where
  name := c.name
  axis := c.axis
  offsetX := c.offsetX
  offsetY := c.offsetY
  groups := s.groups
  mask := s.mask
  formulas := s.formulas
  rules := id

/-- Links the groups of a category, one after the other, and gathers their formulas. -/
def CategoryDraft.link (names : NameMap) (groups : List Group) (id : RuleSetId)
    (c : CategoryDraft) : Except Fault Category := do
  let gathered ← c.groups.foldlM (fun gathered name => do
    let g ← linkGroup names c.name name
    return gathered.add groups g) Gathered.none
  return c.complete id gathered

/-! ### Drafts -/

/-- A rule set with the places of its names. -/
structure NamedRules where
  rules : RuleSet
  formulaNames : NameMap
  groupNames : NameMap
  categoryNames : NameMap

namespace NamedRules

/-- The formula that was entered under a name. -/
def formulaId? (r : NamedRules) (name : String) : Option FormulaId :=
  (r.formulaNames.get? name).map FormulaId.mk

/-- The group that was entered under a name. -/
def groupId? (r : NamedRules) (name : String) : Option GroupId :=
  (r.groupNames.get? name).map GroupId.mk

/-- The category that was entered under a name. -/
def categoryId? (r : NamedRules) (name : String) : Option CategoryId :=
  (r.categoryNames.get? name).map CategoryId.mk

end NamedRules

/-- Links the parts of a draft when the names of its groups are known. -/
def Draft.linkParts (d : Draft) (id : RuleSetId) (groupNames : NameMap) :
    Except Fault NamedRules := do
  let formulas ← linkEach (·.name) .duplicateFormula (FormulaDraft.link groupNames) ∅ 0 d.formulas
  let groups ← d.groups.mapM (GroupDraft.link formulas.names)
  let categories ←
    linkEach (·.name) .duplicateCategory (CategoryDraft.link groupNames groups id) ∅ 0 d.categories
  return {
    rules := ⟨id, formulas.list, groups, categories.list⟩
    formulaNames := formulas.names
    groupNames := groupNames
    categoryNames := categories.names }

/-- Checks a draft and links it into the rule set of the given identity, and keeps the names. -/
def Draft.linkNamed (d : Draft) (id : RuleSetId) : Except Fault NamedRules := do
  if GroupSet.capacity < d.groups.length then
    throw (.tooManyGroups d.groups.length)
  -- Constraints refer to groups by name, so all of their names are needed before any formula.
  let named ← linkEach (·.name) .duplicateGroup .ok ∅ 0 d.groups
  d.linkParts id named.names

/-- Checks a draft and links it into the rule set of the given identity. -/
def Draft.link (d : Draft) (id : RuleSetId) : Except Fault RuleSet := do
  let named ← d.linkNamed id
  return named.rules

end Terrain
