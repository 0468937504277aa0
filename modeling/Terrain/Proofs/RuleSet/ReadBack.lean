import Mathlib.Data.List.Forall2
import Terrain.Proofs.RuleSet.Naming

/-! ## Reading a rule set back

Linking replaces names by places. Here the names are put back, which gives a draft in a normal form:
a category lists each of its groups once, and a direction of a formula lists its groups in the order
in which they are defined. Nothing else is lost, so the normal form is linked into the same rule
set. -/

namespace Terrain

/-! ### Putting names back -/

/-- The formula as a draft, given the names of all groups. The groups that block it in a direction
    are listed in ascending order, and a direction without any is not listed. -/
def Formula.read (groups : List String) (f : Formula) : FormulaDraft :=
  ⟨f.name, f.zone, f.line, f.constraint.blockers.map fun s =>
    if s.isEmpty then none else some (s.toList.filterMap fun g => groups[g.index]?)⟩

/-- The group as a draft, given the names of all formulas. -/
def Group.read (formulas : List String) (g : Group) : GroupDraft :=
  ⟨g.name, g.tiles, g.formulas.filterMap fun k => formulas[k.index]?⟩

/-- The category as a draft, given the names of all groups. -/
def Category.read (groups : List String) (c : Category) : CategoryDraft :=
  ⟨c.name, c.axis, c.offsetX, c.offsetY, c.groups.filterMap fun g => groups[g.index]?⟩

/-- The draft that a rule set amounts to. -/
def RuleSet.read (r : RuleSet) : Draft :=
  let groupNames := r.groups.map (·.name)
  let formulaNames := r.formulas.map (·.name)
  ⟨r.formulas.map (·.read groupNames), r.groups.map (·.read formulaNames),
    r.categories.map (·.read groupNames)⟩

/-- The same rules under another identity. -/
def RuleSet.reissued (r : RuleSet) (id : RuleSetId) : RuleSet :=
  { r with id := id, categories := r.categories.map fun c => { c with rules := id } }

/-! ### The normal form -/

/-- The other formula has the same name, zone and line, and in each direction the same groups,
    however they are listed. -/
structure FormulaDraft.SameRule (f f' : FormulaDraft) : Prop where
  name_eq : f'.name = f.name
  zone_eq : f'.zone = f.zone
  line_eq : f'.line = f.line
  mem_blockedAt_iff : ∀ o name, name ∈ f'.blockedAt o ↔ name ∈ f.blockedAt o

/-- The category with later mentions of a group left out. -/
def CategoryDraft.unrepeated (c : CategoryDraft) : CategoryDraft :=
  { c with groups := c.groups.eraseDups }

/-- The second draft has the definitions of the first one in their order. Only the lists of groups in
    constraints and in categories may be written in another way. -/
structure Draft.NormalForm (d n : Draft) : Prop where
  formulas : List.Forall₂ FormulaDraft.SameRule d.formulas n.formulas
  groups : n.groups = d.groups
  categories : n.categories = d.categories.map (·.unrepeated)

theorem FormulaDraft.SameRule.linked_eq {f f' : FormulaDraft} (h : f.SameRule f')
    (groups : List String) : f'.linked groups = f.linked groups := by
  have hblockers : ∀ o, f'.blockers groups o = f.blockers groups o := by
    intro o
    refine GroupSet.ext_contains fun g => Bool.eq_iff_iff.mpr ?_
    simp only [contains_blockers_iff, h.mem_blockedAt_iff]
  have hconstraint : f'.constraint groups = f.constraint groups := by
    simp only [constraint, hblockers]
  unfold linked
  rw [h.name_eq, h.zone_eq, h.line_eq, hconstraint]

theorem FormulaDraft.SameRule.wellFormed {f f' : FormulaDraft} (h : f.SameRule f')
    {groups : List String} (hf : f.WellFormed groups) : f'.WellFormed groups where
  zone := h.zone_eq ▸ hf.zone
  line := h.line_eq ▸ hf.line
  blocked := fun o name hname => hf.blocked o name ((h.mem_blockedAt_iff o name).mp hname)

theorem CategoryDraft.groupIds_unrepeated {names : List String} {c : CategoryDraft}
    (hc : ∀ name ∈ c.groups, name ∈ names) : c.unrepeated.groupIds names = c.groupIds names := by
  have hunrepeated : ∀ name ∈ c.unrepeated.groups, name ∈ names := fun name hname =>
    hc name (List.mem_eraseDups.mp hname)
  rw [groupIds_eq hc, groupIds_eq hunrepeated, unrepeated, eraseDups_of_nodup (nodup_eraseDups _)]

theorem CategoryDraft.linked_unrepeated {groups : List Group} {c : CategoryDraft}
    (hc : ∀ name ∈ c.groups, name ∈ groups.map (·.name)) (id : RuleSetId) :
    c.unrepeated.linked groups id = c.linked groups id := by
  unfold linked
  rw [groupIds_unrepeated hc]
  rfl

section

variable {α β γ : Type} {R : α → β → Prop} {l : List α} {l' : List β}

theorem forall_mem_of_forall₂ {p : α → Prop} {q : β → Prop} (h : ∀ a b, R a b → p a → q b)
    (hl : List.Forall₂ R l l') (hp : ∀ a ∈ l, p a) : ∀ b ∈ l', q b := by
  induction hl with
  | nil => exact fun _ hb => absurd hb List.not_mem_nil
  | cons hab _ ih =>
    obtain ⟨ha, hl⟩ := List.forall_mem_cons.mp hp
    exact List.forall_mem_cons.mpr ⟨h _ _ hab ha, ih hl⟩

/-- What related entries have in common, related lists have in common. -/
theorem map_eq_of_forall₂ {f : α → γ} {g : β → γ} (h : ∀ {a b}, R a b → f a = g b)
    (hl : List.Forall₂ R l l') : l.map f = l'.map g := by
  have hmap : List.Forall₂ Eq (l.map f) (l'.map g) := List.rel_map (fun _ _ hab => h hab) hl
  rw [List.forall₂_eq_eq_eq] at hmap
  exact hmap

/-- Related lists have related entries at every place. -/
theorem getElem?_of_forall₂ (hl : List.Forall₂ R l l') (i : Nat) : Option.Rel R l[i]? l'[i]? := by
  induction hl generalizing i with
  | nil => exact .none
  | cons hab _ ih =>
    cases i with
    | zero => exact .some hab
    | succ i => exact ih i

end

namespace Draft.NormalForm

variable {d n : Draft} (h : d.NormalForm n)

include h

theorem groupNames_eq : n.groupNames = d.groupNames := by
  rw [groupNames, h.groups, groupNames]

theorem formulaNames_eq : n.formulaNames = d.formulaNames :=
  (map_eq_of_forall₂ (fun hab => hab.name_eq.symm) h.formulas).symm

theorem categoryNames_eq : n.categoryNames = d.categoryNames := by
  rw [categoryNames, h.categories, List.map_map]
  rfl

/-- A normal form is well formed as soon as its draft is. -/
theorem wellFormed (hd : d.WellFormed) : n.WellFormed := by
  refine hd.of_names_eq h.groupNames_eq h.formulaNames_eq h.categoryNames_eq ?_ ?_ ?_
  · exact forall_mem_of_forall₂ (fun _ _ hab ha => hab.wellFormed ha) h.formulas hd.formulas
  · rw [h.groups]
    exact hd.groups
  · rw [h.categories]
    refine List.forall_mem_map.mpr fun c hc name hname => ?_
    exact hd.categories c hc name (List.mem_eraseDups.mp hname)

/-- A draft and its normal form stand for the same rule set. -/
theorem linked_eq (hd : d.WellFormed) (id : RuleSetId) : n.linked id = d.linked id := by
  have hformulas : n.formulas.map (·.linked d.groupNames) =
      d.formulas.map (·.linked d.groupNames) :=
    (map_eq_of_forall₂ (fun hab => (hab.linked_eq _).symm) h.formulas).symm
  have hgroups : n.linkedGroups = d.linkedGroups := by
    rw [linkedGroups, h.groups, h.formulaNames_eq, linkedGroups]
  have hcategories : n.categories.map (·.linked d.linkedGroups id) =
      d.categories.map (·.linked d.linkedGroups id) := by
    rw [h.categories, List.map_map]
    refine List.map_congr_left fun c hc => CategoryDraft.linked_unrepeated ?_ id
    rw [map_name_linkedGroups]
    exact hd.categories c hc
  unfold linked
  rw [h.groupNames_eq, hformulas, hgroups, hcategories]

end Draft.NormalForm

/-! ### What is read is the normal form -/

/-- Names that stand for places are read again from these places. -/
theorem filterMap_getElem?_idxOf {all names : List String} (h : ∀ name ∈ names, name ∈ all) :
    names.filterMap (fun name => all[all.idxOf name]?) = names := by
  rw [List.filterMap_congr fun name hname => List.getElem?_idxOf (h name hname)]
  exact List.filterMap_some

theorem Formula.blockedAt_read (groups : List String) (f : Formula) (o : Orientation) :
    (f.read groups).blockedAt o =
      (f.constraint.blockers.get o).toList.filterMap fun g => groups[g.index]? := by
  simp only [FormulaDraft.blockedAt, read, Compass.get_map]
  split
  · rename_i hempty
    have hnil : (f.constraint.blockers.get o).toList = [] := by
      refine List.eq_nil_iff_forall_not_mem.mpr fun g hg => ?_
      rw [GroupSet.mem_toList, GroupSet.isEmpty_iff.mp hempty g] at hg
      cases hg
    rw [hnil]
    rfl
  · rfl

/-- In each direction a linked formula is read with the groups that its draft names there. -/
theorem FormulaDraft.sameRule_read_linked {groups : List String}
    (hle : groups.length ≤ GroupSet.capacity) {f : FormulaDraft} (hf : f.WellFormed groups) :
    f.SameRule ((f.linked groups).read groups) where
  name_eq := rfl
  zone_eq := rfl
  line_eq := rfl
  mem_blockedAt_iff := by
    intro o name
    simp only [Formula.blockedAt_read, linked, get_constraint, List.mem_filterMap,
      GroupSet.mem_toList, contains_blockers_iff]
    constructor
    · rintro ⟨g, ⟨⟨other, hother, rfl⟩, _⟩, hname⟩
      have hread := List.getElem?_idxOf (hf.blocked o other hother)
      cases hread.symm.trans hname
      exact hother
    · intro hname
      have hmem := hf.blocked o name hname
      refine ⟨.named groups name, ⟨⟨name, hname, rfl⟩, ?_⟩, List.getElem?_idxOf hmem⟩
      exact Nat.lt_of_lt_of_le (List.idxOf_lt_length_of_mem hmem) hle

theorem GroupDraft.read_linked {formulas : List String} {g : GroupDraft}
    (hg : g.WellFormed formulas) : (g.linked formulas).read formulas = g := by
  have hnames := filterMap_getElem?_idxOf hg.formulas
  simp only [Group.read, linked, List.filterMap_map, Function.comp_def, FormulaId.named, hnames]

theorem CategoryDraft.read_linked {groups : List Group} {c : CategoryDraft}
    (hc : ∀ name ∈ c.groups, name ∈ groups.map (·.name)) (id : RuleSetId) :
    (c.linked groups id).read (groups.map (·.name)) = c.unrepeated := by
  have hnames := filterMap_getElem?_idxOf fun name hname => hc name (List.mem_eraseDups.mp hname)
  simp only [Category.read, linked, groupIds_eq hc, List.filterMap_map, Function.comp_def,
    GroupId.named, hnames]
  rfl

theorem Draft.normalForm_read_linked {d : Draft} (hd : d.WellFormed) (id : RuleSetId) :
    d.NormalForm (d.linked id).read := by
  have hgroupNames : (d.linked id).groups.map (·.name) = d.groupNames := d.map_name_linkedGroups
  have hformulaNames : (d.linked id).formulas.map (·.name) = d.formulaNames :=
    d.map_name_formulas id
  unfold RuleSet.read
  dsimp only
  rw [hgroupNames, hformulaNames]
  have hle : d.groupNames.length ≤ GroupSet.capacity := by
    rw [groupNames, List.length_map]
    exact hd.groups_le
  constructor
  · refine List.forall₂_map_right_iff.mpr (List.forall₂_map_right_iff.mpr ?_)
    exact List.forall₂_same.mpr fun f hf => FormulaDraft.sameRule_read_linked hle (hd.formulas f hf)
  · show (d.groups.map _).map _ = d.groups
    rw [List.map_map]
    exact (List.map_congr_left fun g hg => GroupDraft.read_linked (hd.groups g hg)).trans
      (List.map_id _)
  · show (d.categories.map _).map _ = _
    rw [List.map_map]
    refine List.map_congr_left fun c hc => ?_
    have hread := @CategoryDraft.read_linked d.linkedGroups c
    rw [map_name_linkedGroups] at hread
    exact hread (hd.categories c hc) id

/-! ### Look-ups -/

/-- A look-up gives the place of each name in a list, and nothing for any other string. -/
structure Locates {α : Type} (find : String → Option α) (place : α → Nat) (names : List String) :
    Prop where
  some_iff : ∀ {name k}, find name = some k ↔ names[place k]? = some name
  none_iff : ∀ {name}, find name = none ↔ name ∉ names

theorem locates_of_nodup {α β : Type} {key : α → String} {l : List α} (h : (l.map key).Nodup)
    {mk : Nat → β} {place : β → Nat} (hmk : ∀ i, place (mk i) = i) (hplace : ∀ k, mk (place k) = k) :
    Locates (fun name => (l.findIdx? (key · == name)).map mk) place (l.map key) where
  some_iff := by
    intro name k
    simp only [Option.map_eq_some_iff, findIdx?_eq_some_iff_of_nodup h]
    constructor
    · rintro ⟨i, hi, rfl⟩
      rw [hmk]
      exact hi
    · intro hk
      exact ⟨place k, hk, hplace k⟩
  none_iff := by
    intro name
    simp only [Option.map_eq_none_iff, List.findIdx?_eq_none_iff, beq_eq_false_iff_ne, List.mem_map,
      not_exists, not_and]

theorem Draft.WellFormed.locates {d : Draft} (hd : d.WellFormed) (id : RuleSetId) :
    Locates (d.linked id).formulaId? FormulaId.index d.formulaNames ∧
      Locates (d.linked id).groupId? GroupId.index d.groupNames ∧
      Locates (d.linked id).categoryId? CategoryId.index d.categoryNames := by
  have hgroupNames : (d.linked id).groups.map (·.name) = d.groupNames := d.map_name_linkedGroups
  have hformulaNames : (d.linked id).formulas.map (·.name) = d.formulaNames :=
    d.map_name_formulas id
  have hcategoryNames : (d.linked id).categories.map (·.name) = d.categoryNames :=
    d.map_name_categories id
  rw [← hgroupNames, ← hformulaNames, ← hcategoryNames]
  refine ⟨locates_of_nodup ?_ (fun _ => rfl) (fun _ => rfl),
    locates_of_nodup ?_ (fun _ => rfl) (fun _ => rfl),
    locates_of_nodup ?_ (fun _ => rfl) (fun _ => rfl)⟩
  · exact hformulaNames ▸ hd.formulaNames_nodup
  · exact hgroupNames ▸ hd.groupNames_nodup
  · exact hcategoryNames ▸ hd.categoryNames_nodup

/-! ### The round trip -/

theorem Draft.linked_reissued (d : Draft) (id id' : RuleSetId) :
    (d.linked id).reissued id' = d.linked id' := by
  unfold RuleSet.reissued linked
  dsimp only
  rw [List.map_map]
  rfl

/-- A rule set is read back as the normal form of its draft and finds every definition at its place,
    and what is read is linked into the same rules. -/
theorem Draft.read_link {d : Draft} {id : RuleSetId} {r : RuleSet} (h : d.link id = .ok r) :
    d.NormalForm r.read ∧
      Locates r.formulaId? FormulaId.index d.formulaNames ∧
      Locates r.groupId? GroupId.index d.groupNames ∧
      Locates r.categoryId? CategoryId.index d.categoryNames ∧
      ∀ id', r.read.link id' = .ok (r.reissued id') := by
  obtain ⟨hd, rfl⟩ := link_eq_ok_iff.mp h
  have hnormal := normalForm_read_linked hd id
  obtain ⟨hformula, hgroup, hcategory⟩ := hd.locates id
  refine ⟨hnormal, hformula, hgroup, hcategory, fun id' => ?_⟩
  rw [linked_reissued, ← hnormal.linked_eq hd id']
  exact link_eq_ok_iff.mpr ⟨hnormal.wellFormed hd, rfl⟩

/-- The ledge with a floor that groups above it switch off, named out of order and one of them twice,
    with a direction that lists no group, and with a group and a category that repeat themselves. -/
theorem Draft.read_link_ledge :
    let floor := FormulaDraft.new "floor" ⟨.y, 0, 15, 15, 15⟩ ⟨.ofInt 0, .ofInt 16⟩
    let low := FormulaDraft.new "low" ⟨.y, 0, 15, 15, 15⟩ ⟨.ofInt 1, .ofInt 4⟩
    let groups : List GroupDraft :=
      [⟨"top", [.single 0 1, .run 0 3 5], ["low", "floor", "low"]⟩, ⟨"block", [.single 0 2], []⟩]
    let d : Draft := {
      formulas := [((floor.blockedBy .top "block").blockedBy .top "top").blockedBy .top "block",
        { low with blocked := low.blocked.set .left (some []) }]
      groups := groups
      categories := [⟨"feet", .y, 0, 8, ["block", "top", "block"]⟩] }
    let n : Draft := {
      formulas := [(floor.blockedBy .top "top").blockedBy .top "block", low]
      groups := groups
      categories := [⟨"feet", .y, 0, 8, ["block", "top"]⟩] }
    let r := d.linked ⟨1⟩
    d.link ⟨1⟩ = .ok r ∧ r.read = n ∧ d.NormalForm r.read ∧
      Locates r.formulaId? FormulaId.index d.formulaNames ∧
      Locates r.groupId? GroupId.index d.groupNames ∧
      Locates r.categoryId? CategoryId.index d.categoryNames ∧
      ∀ id', r.read.link id' = .ok (r.reissued id') := by
  intro floor low groups d n r
  have hlink : d.link ⟨1⟩ = .ok r := by
    refine link_eq_ok_iff.mpr ⟨?_, rfl⟩
    decide +kernel
  refine ⟨hlink, ?_, read_link hlink⟩
  decide +kernel

end Terrain
