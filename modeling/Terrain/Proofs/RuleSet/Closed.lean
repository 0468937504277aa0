import Terrain.Proofs.RuleSet.Linking
import Terrain.RuleSet.Load

/-! ## Closed rule sets

In a closed rule set every place that is stored anywhere is the place of something, every group fits
into a set of groups, and each category has the set of exactly the groups that it lists. Every way
to make a rule set makes a closed one. -/

namespace Terrain

/-- The groups of a category are groups of the rule set, and its set of groups has them all. -/
structure Category.ClosedIn (r : RuleSet) (c : Category) : Prop where
  lt_length : ∀ g ∈ c.groups, g.index < r.groups.length
  mem_mask : ∀ g ∈ c.groups, c.mask.contains g = true

/-- No place points outside the rule set, and the categories belong to it. -/
structure RuleSet.Closed (r : RuleSet) : Prop where
  groups_le : r.groups.length ≤ GroupSet.capacity
  formulas : ∀ g ∈ r.groups, ∀ k ∈ g.formulas, k.index < r.formulas.length
  categories : ∀ c ∈ r.categories, c.ClosedIn r
  rules_eq : ∀ c ∈ r.categories, c.rules = r.id

/-- A picture belongs to the groups of the rule set that contain it. -/
theorem RuleSet.contains_groupsForTile_iff {r : RuleSet} {picture : TileId} {g : GroupId} :
    (r.groupsForTile picture).contains g = true ↔
      (∃ group, r.group? g = some group ∧ group.containsTile picture = true) ∧
        g.index < GroupSet.capacity := by
  simp only [groupsForTile, GroupSet.contains_ofList, List.mem_map, List.mem_filter]
  refine and_congr_left' ?_
  constructor
  · intro ⟨⟨group, i⟩, ⟨hmem, hcontains⟩, hg⟩
    subst hg
    exact ⟨group, List.mk_mem_zipIdx_iff_getElem?.mp hmem, hcontains⟩
  · intro ⟨group, hgroup, hcontains⟩
    exact ⟨(group, g.index), ⟨List.mk_mem_zipIdx_iff_getElem?.mpr hgroup, hcontains⟩, rfl⟩

theorem RuleSet.empty_closed (id : RuleSetId) : (RuleSet.empty id).Closed where
  groups_le := Nat.zero_le _
  formulas := fun _ hg => absurd hg List.not_mem_nil
  categories := fun _ hc => absurd hc List.not_mem_nil
  rules_eq := fun _ hc => absurd hc List.not_mem_nil

namespace Draft

variable {d : Draft}

theorem length_linkedGroups (d : Draft) : d.linkedGroups.length = d.groups.length :=
  List.length_map _

theorem idxOf_lt_of_mem_groupNames {name : String} (h : name ∈ d.groupNames) :
    d.groupNames.idxOf name < d.groups.length := by
  rw [← List.length_map (·.name)]
  exact List.idxOf_lt_length_of_mem h

theorem linked_groups_eq (d : Draft) (id : RuleSetId) (c : CategoryDraft) :
    (c.linked d.linkedGroups id).groups = c.groupIds d.groupNames := by
  rw [← map_name_linkedGroups]
  rfl

/-- A group of a linked category is the place of a name that the draft of the category lists. -/
theorem mem_groupIds_iff {c : CategoryDraft} {names : List String} {g : GroupId} :
    g ∈ c.groupIds names ↔ ∃ name ∈ c.groups, GroupId.named names name = g := by
  rw [CategoryDraft.groupIds, List.mem_eraseDups, List.mem_map]

theorem WellFormed.linked_closed (h : d.WellFormed) (id : RuleSetId) : (d.linked id).Closed where
  groups_le := by
    show d.linkedGroups.length ≤ GroupSet.capacity
    rw [length_linkedGroups]
    exact h.groups_le
  formulas := by
    intro g hg k hk
    obtain ⟨gd, hgd, rfl⟩ := List.mem_map.mp hg
    obtain ⟨name, hname, rfl⟩ := List.mem_map.mp hk
    have hlen : (d.linked id).formulas.length = d.formulaNames.length :=
      (List.length_map _).trans (List.length_map _).symm
    rw [hlen]
    exact List.idxOf_lt_length_of_mem ((h.groups gd hgd).formulas name hname)
  categories := by
    intro c hc
    obtain ⟨cd, hcd, rfl⟩ := List.mem_map.mp hc
    have hlt : ∀ g ∈ cd.groupIds d.groupNames, g.index < d.groups.length := by
      intro g hg
      obtain ⟨name, hname, rfl⟩ := mem_groupIds_iff.mp hg
      exact idxOf_lt_of_mem_groupNames (h.categories cd hcd name hname)
    have hids : ∀ g ∈ (cd.linked d.linkedGroups id).groups, g ∈ cd.groupIds d.groupNames := by
      intro g hg
      rw [← linked_groups_eq]
      exact hg
    constructor
    · intro g hg
      show g.index < d.linkedGroups.length
      rw [length_linkedGroups]
      exact hlt g (hids g hg)
    · intro g hg
      -- The set drops what is past its capacity, and no group of the draft is.
      refine GroupSet.contains_ofList.mpr ⟨hg, ?_⟩
      exact Nat.lt_of_lt_of_le (hlt g (hids g hg)) h.groups_le
  rules_eq := by
    intro c hc
    obtain ⟨cd, _, rfl⟩ := List.mem_map.mp hc
    rfl

/-- The set of a linked category has the groups that the category lists. -/
theorem WellFormed.linked_mem_mask (h : d.WellFormed) {c : CategoryDraft} (hc : c ∈ d.categories)
    (id : RuleSetId) : ∀ g ∈ (c.linked d.linkedGroups id).groups,
      (c.linked d.linkedGroups id).mask.contains g = true :=
  ((h.linked_closed id).categories _ (List.mem_map_of_mem hc)).mem_mask

theorem link_closed {id : RuleSetId} {r : RuleSet} (h : d.link id = .ok r) : r.Closed := by
  obtain ⟨hd, rfl⟩ := link_eq_ok_iff.mp h
  exact hd.linked_closed id

theorem link_id {id : RuleSetId} {r : RuleSet} (h : d.link id = .ok r) : r.id = id := by
  obtain ⟨_, rfl⟩ := link_eq_ok_iff.mp h
  rfl

end Draft
end Terrain
