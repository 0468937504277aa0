import Terrain.Proofs.FirstMentions
import Terrain.Proofs.Grid.Pictures
import Terrain.Proofs.RuleSet.Closed

/-! ## Rules by name

A rule set holds places where its draft held names. Here a draft is read as it stands, by names
only: which formulas a category tries in a tile, which of them fires, and what it answers. The rule
set that the draft is linked into answers the same. -/

namespace Terrain

/-! ### Lists of names -/

theorem GroupId.named_inj {names : List String} {name other : String} (hname : name ∈ names)
    (hother : other ∈ names) (h : GroupId.named names name = .named names other) :
    name = other := by
  have hidx : names.idxOf name = names.idxOf other := congrArg GroupId.index h
  have hget := List.getElem_idxOf (List.idxOf_lt_length_of_mem hname)
  simp only [hidx, List.getElem_idxOf (List.idxOf_lt_length_of_mem hother)] at hget
  exact hget.symm

/-- The place of a name holds the entry of that name. -/
theorem getElem?_idxOf_map {α : Type} (key : α → String) (l : List α) (name : String) :
    l[(l.map key).idxOf name]? = l.find? (key · == name) := by
  induction l with
  | nil => rfl
  | cons a l ih =>
    simp only [List.map_cons, List.idxOf_cons, List.find?_cons]
    cases key a == name with
    | true => rfl
    | false => exact ih

/-- Among distinct names, an entry is found by its name at its place. -/
theorem findIdx?_eq_some_iff_of_nodup {α : Type} {key : α → String} {l : List α}
    (h : (l.map key).Nodup) {name : String} {i : Nat} :
    l.findIdx? (key · == name) = some i ↔ (l.map key)[i]? = some name := by
  simp only [List.findIdx?_eq_some_iff_getElem, List.getElem?_eq_some_iff, List.length_map,
    List.getElem_map, beq_iff_eq]
  constructor
  · intro ⟨hi, hname, _⟩
    exact ⟨hi, hname⟩
  · intro ⟨hi, hname⟩
    refine ⟨hi, hname, fun j hj heq => ?_⟩
    have hne := List.pairwise_map.mp h
    exact List.pairwise_iff_getElem.mp hne j i _ hi hj (heq.trans hname.symm)

/-- What stands on the left of a relation has its counterpart. -/
theorem exists_of_rel_some {α β : Type} {P : α → β → Prop} {x : Option α} {y : Option β} {a : α}
    (h : Option.Rel P x y) (hx : x = some a) : ∃ b, y = some b ∧ P a b := by
  subst hx
  cases h with
  | some hab => exact ⟨_, rfl, hab⟩

theorem CategoryDraft.groupIds_eq {names : List String} {c : CategoryDraft}
    (hc : ∀ name ∈ c.groups, name ∈ names) :
    c.groupIds names = c.groups.eraseDups.map (.named names) :=
  eraseDups_map c.groups fun _ ha _ hb => GroupId.named_inj (hc _ ha) (hc _ hb)

/-! ### Formulas -/

namespace FormulaDraft

/-- The value at a pixel. No group has a part in it. -/
def valueAt (f : FormulaDraft) (p : Pixel) : Binary64 :=
  f.line.eval (match f.zone.axis with
    | .x => .ofInt p.y
    | .y => .ofInt p.x)

/-- Whether a group stands in a direction in which it blocks the formula. -/
def blockedAmid (f : FormulaDraft) (around : Orientation → String → Bool) : Bool :=
  Orientation.all.any fun o => (f.blockedAt o).any (around o)

/-- Whether a formula answers at a pixel. -/
def fires (f : FormulaDraft) (axis : Axis) (p : Pixel) (around : Orientation → String → Bool) :
    Bool :=
  decide (f.zone.axis = axis) && f.zone.contains p && !f.blockedAmid around &&
    (f.valueAt p).isFinite

/-- What blocks a formula depends on the groups that it names only. -/
theorem blockedAmid_congr {f : FormulaDraft} {around around' : Orientation → String → Bool}
    (h : ∀ o, ∀ name ∈ f.blockedAt o, around o name = around' o name) :
    f.blockedAmid around = f.blockedAmid around' := by
  refine Bool.eq_iff_iff.mpr ?_
  simp only [blockedAmid, List.any_eq_true]
  refine exists_congr fun o => and_congr_right fun _ => ?_
  refine exists_congr fun name => and_congr_right fun hname => ?_
  rw [h o name hname]

theorem fires_congr {f : FormulaDraft} {around around' : Orientation → String → Bool}
    (h : ∀ o, ∀ name ∈ f.blockedAt o, around o name = around' o name) (axis : Axis) (p : Pixel) :
    f.fires axis p around = f.fires axis p around' := by
  unfold fires
  rw [blockedAmid_congr h]

theorem contains_blockers_iff {groups : List String} {f : FormulaDraft} {o : Orientation}
    {g : GroupId} :
    (f.blockers groups o).contains g = true ↔
      (∃ name ∈ f.blockedAt o, GroupId.named groups name = g) ∧ g.index < GroupSet.capacity := by
  simp only [blockers, GroupSet.contains_ofList, List.mem_map]

theorem blockedAmid_linked (groups : List String) (f : FormulaDraft)
    (around : Orientation → GroupSet) :
    (f.linked groups).constraint.blockedAmid around =
      f.blockedAmid fun o name => (around o).contains (.named groups name) := by
  refine Bool.eq_iff_iff.mpr (Constraint.blockedAmid_iff.trans ?_)
  simp only [linked, get_constraint, contains_blockers_iff, blockedAmid, List.any_eq_true]
  constructor
  · intro ⟨o, g, ⟨⟨name, hname, hg⟩, _⟩, haround⟩
    subst hg
    exact ⟨o, Orientation.mem_all o, name, hname, haround⟩
  · intro ⟨o, _, name, hname, haround⟩
    -- What stands somewhere is in a set, so it is not past the capacity.
    exact ⟨o, _, ⟨⟨name, hname, rfl⟩, GroupSet.lt_capacity_of_contains haround⟩, haround⟩

theorem valueAt_linked (groups : List String) (f : FormulaDraft) (p : Pixel) :
    (f.linked groups).valueAt p = f.valueAt p := rfl

theorem fires_linked (groups : List String) (f : FormulaDraft) (axis : Axis) (p : Pixel)
    (around : Orientation → GroupSet) :
    (f.linked groups).fires axis p around =
      f.fires axis p fun o name => (around o).contains (.named groups name) := by
  unfold fires
  rw [← blockedAmid_linked, ← valueAt_linked groups]
  rfl

end FormulaDraft

/-! ### Drafts -/

namespace Draft

variable {d : Draft} {id : RuleSetId}

def formulaNamed? (d : Draft) (name : String) : Option FormulaDraft :=
  d.formulas.find? (·.name == name)

def groupNamed? (d : Draft) (name : String) : Option GroupDraft :=
  d.groups.find? (·.name == name)

def categoryNamed? (d : Draft) (name : String) : Option CategoryDraft :=
  d.categories.find? (·.name == name)

theorem mem_groupNames_of_groupNamed? {name : String} {g : GroupDraft}
    (h : d.groupNamed? name = some g) : name ∈ d.groupNames := by
  unfold groupNamed? at h
  have hname := List.find?_some h
  exact List.mem_map.mpr ⟨g, List.mem_of_find?_eq_some h, beq_iff_eq.mp hname⟩

/-- The formulas that the group of a name lists. -/
def formulasOf (d : Draft) (name : String) : List FormulaDraft :=
  match d.groupNamed? name with
  | some g => g.formulas.filterMap d.formulaNamed?
  | none => []

/-- Whether the group of a name covers a picture. -/
def covers (d : Draft) (name : String) (picture : TileId) : Bool :=
  (d.groupNamed? name).any fun g => g.tiles.any (·.contains picture)

/-- The formulas to try for a category in a tile of the groups `own`. -/
def candidates (d : Draft) (c : CategoryDraft) (own : String → Bool) : List FormulaDraft :=
  (c.groups.eraseDups.filter own).flatMap d.formulasOf

/-- What a category finds at a pixel of a tile, told by names: the value of the first candidate
    that fires. -/
def answer (d : Draft) (c : CategoryDraft) (own : String → Bool)
    (around : Orientation → String → Bool) (p : Pixel) : Option Binary64 :=
  ((d.candidates c own).find? (·.fires c.axis p around)).map (·.valueAt p)

theorem mem_formulas_of_mem_candidates {c : CategoryDraft} {own : String → Bool} {f : FormulaDraft}
    (h : f ∈ d.candidates c own) : f ∈ d.formulas := by
  obtain ⟨name, _, hf⟩ := List.mem_flatMap.mp h
  unfold formulasOf at hf
  split at hf
  · obtain ⟨formula, _, hf⟩ := List.mem_filterMap.mp hf
    exact List.mem_of_find?_eq_some hf
  · cases hf

/-! ### The linked rule set by name -/

theorem formula?_named (d : Draft) (id : RuleSetId) (name : String) :
    (d.linked id).formula? (.named d.formulaNames name) =
      (d.formulaNamed? name).map (·.linked d.groupNames) := by
  simp only [RuleSet.formula?, linked, FormulaId.named, List.getElem?_map]
  exact congrArg _ (getElem?_idxOf_map _ d.formulas name)

theorem group?_named (d : Draft) (id : RuleSetId) (name : String) :
    (d.linked id).group? (.named d.groupNames name) =
      (d.groupNamed? name).map (·.linked d.formulaNames) := by
  simp only [RuleSet.group?, linked, linkedGroups, GroupId.named, List.getElem?_map]
  exact congrArg _ (getElem?_idxOf_map _ d.groups name)

theorem categoryNamed?_linked (d : Draft) (id : RuleSetId) (name : String) :
    (d.linked id).categoryNamed? name =
      (d.categoryNamed? name).map (·.linked d.linkedGroups id) := by
  have hfind : (d.linked id).categoryNamed? name =
      (d.linked id).categories.find? (·.name == name) := by
    simp only [RuleSet.categoryNamed?, RuleSet.categoryId?, Option.bind_map,
      List.find?_eq_bind_findIdx?_getElem?]
    rfl
  rw [hfind]
  exact List.find?_map

/-- What holds of all categories of two drafts that define the same ones holds of the two that are
    found under a name. -/
theorem rel_categoryNamed?_linked {d d' : Draft} {id id' : RuleSetId}
    {P : Category → Category → Prop} (hsame : d'.categories = d.categories)
    (h : ∀ c ∈ d.categories, P (c.linked d.linkedGroups id) (c.linked d'.linkedGroups id'))
    (name : String) :
    Option.Rel P ((d.linked id).categoryNamed? name) ((d'.linked id').categoryNamed? name) := by
  rw [categoryNamed?_linked, categoryNamed?_linked, categoryNamed?, categoryNamed?, hsame]
  cases hc : d.categories.find? (·.name == name) with
  | none => exact .none
  | some c => exact .some (h c (List.mem_of_find?_eq_some hc))

theorem formulasOf_named (d : Draft) (id : RuleSetId) (name : String) :
    (d.linked id).formulasOf (.named d.groupNames name) =
      (d.formulasOf name).map (·.linked d.groupNames) := by
  unfold RuleSet.formulasOf formulasOf
  rw [group?_named]
  cases d.groupNamed? name with
  | none => rfl
  | some g =>
    simp only [Option.map_some, GroupDraft.linked, List.filterMap_map, List.map_filterMap]
    exact congrArg (List.filterMap · g.formulas) (funext fun name => d.formula?_named id name)

theorem contains_groupsForTile_named (h : d.groups.length ≤ GroupSet.capacity) (id : RuleSetId)
    (name : String) (picture : TileId) :
    ((d.linked id).groupsForTile picture).contains (.named d.groupNames name) =
      d.covers name picture := by
  refine Bool.eq_iff_iff.mpr (RuleSet.contains_groupsForTile_iff.trans ?_)
  rw [group?_named, covers]
  cases hgroup : d.groupNamed? name with
  | none => simp
  | some g =>
    have hmem : name ∈ d.groupNames := mem_groupNames_of_groupNamed? hgroup
    have hlt := Nat.lt_of_lt_of_le (idxOf_lt_of_mem_groupNames hmem) h
    simp [GroupId.named, hlt, Group.containsTile, GroupDraft.linked]

section

variable {c : CategoryDraft}

theorem candidates_linked (hc : ∀ name ∈ c.groups, name ∈ d.groupNames) (id : RuleSetId)
    (lookback : Lookback) (own : GroupSet) :
    (Resolver.mk (d.linked id) lookback).candidates (c.linked d.linkedGroups id) own =
      (d.candidates c fun name => own.contains (.named d.groupNames name)).map
        (·.linked d.groupNames) := by
  simp only [Resolver.candidates, candidates, linked_groups_eq,
    CategoryDraft.groupIds_eq hc, List.filter_map,
    List.flatMap_map, List.map_flatMap]
  exact congrArg (List.flatMap · _) (funext fun name => d.formulasOf_named id name)

/-- One tile answers for a linked category what the draft says by names. -/
theorem probe_linked (h : d.WellFormed) (hc : c ∈ d.categories) (id : RuleSetId)
    (lookback : Lookback) (tile : Tile) (point : Point) (grid : Grid) :
    (Resolver.mk (d.linked id) lookback).probe (c.linked d.linkedGroups id) tile point grid =
      (d.answer c (fun name => (grid.membership tile).contains (.named d.groupNames name))
        (fun o name => (grid.around tile o).contains (.named d.groupNames name))
        (tile.pixelAt point)).map (.hit c.axis tile) := by
  rw [Resolver.probe_eq_find? _ (h.linked_mem_mask hc id), candidates_linked (h.categories c hc),
    List.find?_map, answer]
  simp only [Option.map_map, Function.comp_def, FormulaDraft.fires_linked,
    FormulaDraft.valueAt_linked]
  rfl

end

/-! ### Two drafts on the same maps -/

/-- The categories of two drafts find the same on all maps, if the groups of one draft, renamed,
    cover the same pictures in the other, and the categories answer alike wherever groups stand that
    correspond in this way. -/
theorem sameOnMaps_of_answer {d d' : Draft} (h : d.WellFormed) (h' : d'.WellFormed)
    {c c' : CategoryDraft} (hc : c ∈ d.categories) (hc' : c' ∈ d'.categories)
    (haxis : c.axis = c'.axis) (hx : c.offsetX = c'.offsetX) (hy : c.offsetY = c'.offsetY)
    (rename : String → String)
    (hcovers : ∀ name ∈ d.groupNames, ∀ picture,
      d.covers name picture = d'.covers (rename name) picture)
    (hanswer : ∀ {own own' : String → Bool} {around around' : Orientation → String → Bool},
      (∀ name ∈ d.groupNames, own name = own' (rename name)) →
      (∀ o, ∀ name ∈ d.groupNames, around o name = around' o (rename name)) →
      ∀ p, d.answer c own around p = d'.answer c' own' around' p)
    (id id' : RuleSetId) :
    (c.linked d.linkedGroups id).SameOnMaps (c'.linked d'.linkedGroups id') (d.linked id)
      (d'.linked id') := by
  refine .of_resolve ?_
  intro m m' hsame hm hm' lookback old new
  have hmembership : ∀ name ∈ d.groupNames, ∀ t,
      (m.membership t).contains (.named d.groupNames name) =
        (m'.membership t).contains (.named d'.groupNames (rename name)) := by
    intro name hname
    refine hsame.contains_membership hm hm' fun picture => ?_
    rw [contains_groupsForTile_named h.groups_le, contains_groupsForTile_named h'.groups_le]
    exact hcovers name hname picture
  have hsizes := hsame.sameTiles
  refine Resolver.resolve_congr (r := ⟨d.linked id, lookback⟩) (s := ⟨d'.linked id', lookback⟩) rfl
    haxis hx hy (iff_of_true rfl rfl) hsizes.tileWidth hsizes.tileHeight hsizes.tileAt ?_ old new
  intro cell tile p _
  -- A tile answers by names in both, and the names correspond.
  rw [probe_linked h hc, probe_linked h' hc', haxis]
  refine congrArg _ (hanswer ?_ ?_ _)
  · intro name hname
    exact hmembership name hname tile
  · intro o name hname
    exact hsizes.contains_around (hmembership name hname) tile o

end Draft
end Terrain
