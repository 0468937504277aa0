import Terrain.Proofs.RuleSet.Naming

/-! ## What a category gathers

A category names groups, perhaps some of them more than once, and groups share formulas. Linking
gathers the groups of a category and their formulas, each once: nothing that is named is lost, and
the order of first mention is kept. -/

namespace Terrain

/-- The places of the formulas that a group lists. -/
def RuleSet.formulaIdsOf (r : RuleSet) (g : GroupId) : List FormulaId :=
  ((r.group? g).map (·.formulas)).getD []

/-- What a category is made of, given the draft that it was linked from. -/
structure Category.GatheredFrom (c : Category) (r : RuleSet) (draft : CategoryDraft) : Prop where
  /-- Every name is that of a group, and these groups are listed in the order of first mention. -/
  groups : ∃ mentioned, draft.groups.map r.groupId? = mentioned.map some ∧
    FirstMentions c.groups mentioned
  /-- The set has the listed groups. -/
  contains_mask_iff : ∀ {g}, c.mask.contains g = true ↔ g ∈ c.groups
  /-- The set has nothing that is not a group of the rule set. -/
  mask_lt : ∀ {g}, r.groups.length ≤ g.index → c.mask.contains g = false
  /-- The formulas are those that the listed groups list, group by group. -/
  formulas : FirstMentions c.formulas (c.groups.flatMap r.formulaIdsOf)

namespace Draft

variable {d : Draft} {id : RuleSetId}

theorem groupId?_linked {name : String} (h : name ∈ d.groupNames) :
    (d.linked id).groupId? name = some (.named d.groupNames name) := by
  have hplace : d.linkedGroups.findIdx? (·.name == name) = placeOf? d.groupNames name := by
    rw [← placeOf?_map, map_name_linkedGroups]
  exact congrArg (Option.map GroupId.mk) (hplace.trans (placeOf?_of_mem h))

/-- The formulas of a linked category are gathered from the groups that it lists. -/
theorem formulas_linked {c : Category} (hc : c ∈ (d.linked id).categories) :
    c.formulas = (c.groups.flatMap (d.linked id).formulaIdsOf).eraseDups := by
  obtain ⟨draft, _, rfl⟩ := List.mem_map.mp hc
  rfl

theorem linked_gatheredFrom (h : d.WellFormed) {c : CategoryDraft} (hc : c ∈ d.categories) :
    (c.linked d.linkedGroups id).GatheredFrom (d.linked id) c := by
  have hgroups := d.linked_groups_eq id c
  have hmem : c.linked d.linkedGroups id ∈ (d.linked id).categories := List.mem_map_of_mem hc
  have hclosed := (h.linked_closed id).categories _ hmem
  have hmask : ∀ {g}, (c.linked d.linkedGroups id).mask.contains g = true ↔
      g ∈ (c.linked d.linkedGroups id).groups := fun {g} =>
    ⟨fun hg => (GroupSet.contains_ofList.mp hg).1, hclosed.mem_mask g⟩
  refine ⟨⟨c.groups.map (.named d.groupNames), ?_, ?_⟩, hmask, ?_, ?_⟩
  · rw [List.map_map]
    exact List.map_congr_left fun name hname => groupId?_linked (h.categories c hc name hname)
  · rw [hgroups]
    exact firstMentions_eraseDups _
  · intro g hg
    -- A member is listed, and what is listed is a group.
    refine Bool.eq_false_iff.mpr fun hcontains => ?_
    exact Nat.not_lt.mpr hg (hclosed.lt_length g (hmask.mp hcontains))
  · rw [formulas_linked hmem]
    exact firstMentions_eraseDups _

/-- In an accepted draft every category is linked without loss or repetition. -/
theorem link_gatheredFrom {r : RuleSet} (h : d.link id = .ok r) {k : Nat} {draft : CategoryDraft}
    (hk : d.categories[k]? = some draft) :
    ∃ c, r.category? ⟨k⟩ = some c ∧ c.GatheredFrom r draft := by
  obtain ⟨hd, rfl⟩ := link_eq_ok_iff.mp h
  refine ⟨draft.linked d.linkedGroups id, ?_, linked_gatheredFrom hd (List.mem_of_getElem? hk)⟩
  simp only [RuleSet.category?, linked, List.getElem?_map, hk, Option.map_some]

/-- The ledge under moss, which covers its blocks too. The moss lists the old floor twice, and the
    feet name the moss before the ledge and after it. -/
def mossyLedge : Draft where
  formulas := ledge.formulas
  groups := [⟨"top", [.single 0 1], ["low", "floor"]⟩, ⟨"block", [.single 0 2], []⟩,
    ⟨"moss", [.run 0 0 9], ["floor", "floor"]⟩]
  categories := [⟨"feet", .y, 0, 8, ["moss", "top", "moss"]⟩]

theorem link_mossyLedge (id : RuleSetId) : mossyLedge.link id = .ok (mossyLedge.linked id) := by
  refine link_eq_ok_iff.mpr ⟨?_, rfl⟩
  decide +kernel

/-- The feet on the mossy ledge have two groups and two formulas. -/
theorem link_gatheredFrom_mossyLedge :
    let r := mossyLedge.linked ⟨1⟩
    let draft : CategoryDraft := ⟨"feet", .y, 0, 8, ["moss", "top", "moss"]⟩
    let feet : Category := ⟨"feet", .y, 0, 8, [⟨2⟩, ⟨0⟩], ⟨5⟩, [⟨0⟩, ⟨1⟩], ⟨1⟩⟩
    mossyLedge.link ⟨1⟩ = .ok r ∧ mossyLedge.categories[0]? = some draft ∧
      r.category? ⟨0⟩ = some feet ∧ feet.GatheredFrom r draft := by
  intro r draft feet
  have hfeet : r.category? ⟨0⟩ = some feet := by decide +kernel
  obtain ⟨c, hc, hgathered⟩ := link_gatheredFrom (link_mossyLedge ⟨1⟩) (k := 0) rfl
  obtain rfl : c = feet := Option.some.inj (hc.symm.trans hfeet)
  exact ⟨link_mossyLedge ⟨1⟩, rfl, hfeet, hgathered⟩

end Draft
end Terrain
