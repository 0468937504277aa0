import Terrain.Proofs.RuleSet.Loops

/-! ## What linking makes

Linking checks and builds in one pass. Here the two are taken apart: when a draft is well formed,
and which rule set it stands for. Linking succeeds exactly on the well-formed drafts, and then with
that rule set. -/

namespace Terrain

/-! ### Computations with faults -/

/-- The computation succeeds exactly under `P`, and then with `a`. -/
def Yields {α : Type} (x : Except Fault α) (P : Prop) (a : α) : Prop := ∀ b, x = .ok b ↔ P ∧ b = a

namespace Yields

variable {α β : Type} {P Q : Prop}

theorem error (e : Fault) (a : α) (hP : ¬P) : Yields (.error e) P a := by
  intro b
  constructor
  · intro h
    cases h
  · intro ⟨h, _⟩
    exact absurd h hP

theorem ok (a : α) (hP : P) : Yields (.ok a) P a := by
  intro b
  constructor
  · intro h
    cases h
    exact ⟨hP, rfl⟩
  · intro ⟨_, h⟩
    exact congrArg Except.ok h.symm

theorem pure (a : α) : Yields (Pure.pure a) True a := .ok a trivial

theorem congr {x : Except Fault α} {a b : α} (h : Yields x P a) (hPQ : P ↔ Q) (hab : P → a = b) :
    Yields x Q b := by
  intro c
  refine (h c).trans ?_
  constructor
  · intro ⟨hP, hc⟩
    exact ⟨hPQ.mp hP, hc.trans (hab hP)⟩
  · intro ⟨hQ, hc⟩
    have hP := hPQ.mpr hQ
    exact ⟨hP, hc.trans (hab hP).symm⟩

/-- Two computations in a row. The second may count on the condition of the first. -/
theorem bind {x : Except Fault α} {k : α → Except Fault β} {a : α} {b : β} (h : Yields x P a)
    (hk : P → Yields (k a) Q b) : Yields (x >>= k) (P ∧ Q) b := by
  intro c
  cases x with
  | error e =>
    -- The first computation has failed, so its condition is false.
    constructor
    · intro hc
      cases hc
    · intro ⟨⟨hP, _⟩, _⟩
      cases (h a).mpr ⟨hP, rfl⟩
  | ok a' =>
    obtain ⟨hP, rfl⟩ := (h a').mp rfl
    rw [and_iff_right hP]
    exact hk hP c

theorem map {x : Except Fault α} {a : α} (h : Yields x P a) (g : α → β) :
    Yields (x >>= fun a => Pure.pure (g a)) P (g a) :=
  (h.bind fun _ => Yields.pure (g a)).congr (Iff.of_eq (and_true P)) fun _ => rfl

theorem mapM {f : α → Except Fault β} {p : α → Prop} {g : α → β} (l : List α)
    (h : ∀ a ∈ l, Yields (f a) (p a) (g a)) : Yields (l.mapM f) (∀ a ∈ l, p a) (l.map g) := by
  induction l with
  | nil =>
    refine (Yields.pure []).congr ?_ fun _ => rfl
    simp
  | cons a l ih =>
    rw [List.mapM_cons]
    have hrest := ih fun b hb => h b (List.mem_cons_of_mem a hb)
    refine ((h a List.mem_cons_self).bind fun _ => hrest.map (g a :: ·)).congr ?_ fun _ => rfl
    simp only [List.forall_mem_cons]

theorem forM {f : α → Except Fault Unit} {p : α → Prop} (l : List α)
    (h : ∀ a ∈ l, Yields (f a) (p a) ()) : Yields (l.forM f) (∀ a ∈ l, p a) () := by
  induction l with
  | nil =>
    refine (Yields.pure ()).congr ?_ fun _ => rfl
    simp
  | cons a l ih =>
    have hrest := ih fun b hb => h b (List.mem_cons_of_mem a hb)
    refine ((h a List.mem_cons_self).bind fun _ => hrest).congr ?_ fun _ => rfl
    simp only [List.forall_mem_cons]

end Yields

/-! ### Names and places -/

/-- The group that a name stands for. -/
def GroupId.named (groups : List String) (name : String) : GroupId := ⟨groups.idxOf name⟩

/-- The formula that a name stands for. -/
def FormulaId.named (formulas : List String) (name : String) : FormulaId := ⟨formulas.idxOf name⟩

theorem NameMap.Holds.enter_yields {m : NameMap} {names : List String} (hm : m.Holds names)
    (repeated : String → Fault) (name : String) :
    Yields (m.enter repeated name names.length) (name ∉ names)
      (m.insert name names.length).1 := by
  rw [hm.enter]
  split
  · rename_i hname
    exact .error _ _ fun hnew => hnew hname
  · rename_i hnew
    exact .ok _ hnew

/-- A reference is good when its name is among those defined, and stands for its place. -/
theorem reference_yields {α : Type} {m : NameMap} {names : List String} (hm : m.Holds names)
    (name : String) (mk : Nat → α) (fault : Fault) :
    Yields (match m.get? name with
      | some i => .ok (mk i)
      | none => .error fault) (name ∈ names) (mk (names.idxOf name)) := by
  rw [hm name]
  by_cases h : name ∈ names
  · simp only [placeOf?_of_mem h]
    exact .ok _ h
  · simp only [placeOf?_of_not_mem h]
    exact .error _ _ h

theorem linkGroups_yields {m : NameMap} {groups : List String} (hm : m.Holds groups)
    (owner : String) (names : List String) :
    Yields (names.mapM (linkGroup m owner)) (∀ name ∈ names, name ∈ groups)
      (names.map (.named groups)) :=
  .mapM names fun name _ => reference_yields hm name GroupId.mk (.unknownGroup owner name)

theorem linkMask_yields {m : NameMap} {groups : List String} (hm : m.Holds groups) (owner : String)
    (names : List String) :
    Yields (linkMask m owner names) (∀ name ∈ names, name ∈ groups)
      (.ofList (names.map (.named groups))) := by
  rw [linkMask_eq]
  exact (linkGroups_yields hm owner names).map GroupSet.ofList

theorem linkFormulas_yields {m : NameMap} {formulas : List String} (hm : m.Holds formulas)
    (owner : String) (names : List String) :
    Yields (names.mapM (linkFormula m owner)) (∀ name ∈ names, name ∈ formulas)
      (names.map (.named formulas)) :=
  .mapM names fun name _ => reference_yields hm name FormulaId.mk (.unknownFormula owner name)

section

variable {α β : Type} (nameOf : α → String) (repeated : String → Fault) {link : α → Except Fault β}
  {p : α → Prop} {g : α → β} (h : ∀ a, Yields (link a) (p a) (g a)) (l : List α)

include h

/-- Entries are linked one after the other under distinct names that were not seen before. -/
theorem linkEach_yields {m : NameMap} {seen : List String} (hm : m.Holds seen) :
    Yields (linkEach nameOf repeated link m seen.length l)
      (((l.map nameOf).Nodup ∧ ∀ name ∈ l.map nameOf, name ∉ seen) ∧ ∀ a ∈ l, p a)
      ⟨l.map g, m.insertAll seen.length (l.map nameOf)⟩ := by
  induction l generalizing m seen with
  | nil =>
    refine (Yields.pure _).congr ?_ fun _ => rfl
    simp
  | cons a l ih =>
    rw [linkEach]
    have hrest : nameOf a ∉ seen → Yields
        (linkEach nameOf repeated link (m.insert (nameOf a) seen.length).1 (seen.length + 1) l)
        (((l.map nameOf).Nodup ∧ ∀ name ∈ l.map nameOf, name ∉ seen ++ [nameOf a]) ∧ ∀ b ∈ l, p b)
        ⟨l.map g, m.insertAll seen.length (nameOf a :: l.map nameOf)⟩ := by
      intro hnew
      have hentered := ih (hm.insert hnew)
      rw [List.length_append] at hentered
      exact hentered
    refine ((hm.enter_yields repeated (nameOf a)).bind fun hnew => (h a).bind fun _ =>
      (hrest hnew).map _).congr ?_ fun _ => rfl
    simp only [List.map_cons, List.nodup_cons, List.forall_mem_cons]
    -- Here an entry is linked between the two looks at its name.
    constructor
    · intro ⟨hnew, ha, ⟨hnodup, hfresh⟩, hl⟩
      refine ⟨⟨⟨fun hname => ?_, hnodup⟩, hnew, fun name hname hin => ?_⟩, ha, hl⟩
      · exact hfresh (nameOf a) hname (List.mem_append_right seen (List.mem_singleton_self _))
      · exact hfresh name hname (List.mem_append_left _ hin)
    · intro ⟨⟨⟨hname, hnodup⟩, hnew, hfresh⟩, ha, hl⟩
      refine ⟨hnew, ha, ⟨hnodup, fun name hin happend => ?_⟩, hl⟩
      rcases List.mem_append.mp happend with hseen | hsame
      · exact hfresh name hin hseen
      · exact hname (List.mem_singleton.mp hsame ▸ hin)

theorem linkEach_empty_yields :
    Yields (linkEach nameOf repeated link ∅ 0 l) ((l.map nameOf).Nodup ∧ ∀ a ∈ l, p a)
      ⟨l.map g, (∅ : NameMap).insertAll 0 (l.map nameOf)⟩ := by
  refine (linkEach_yields nameOf repeated h l NameMap.holds_empty).congr ?_ fun _ => rfl
  exact and_congr_left' (and_iff_left fun _ _ => List.not_mem_nil)

end

/-! ### Formulas -/

/-- Bounds in order. -/
structure Zone.Ordered (z : Zone) : Prop where
  x : z.minX ≤ z.maxX
  y : z.minY ≤ z.maxY

/-- Coefficients that are numbers. -/
structure Line.Finite (l : Line) : Prop where
  slope : l.slope.isFinite = true
  intercept : l.intercept.isFinite = true

theorem Zone.check_yields (z : Zone) : Yields z.check z.Ordered () := by
  unfold check
  split
  · rename_i hx
    exact .error _ _ fun h => Int32.not_lt.mpr h.x hx
  · rename_i hx
    split
    · rename_i hy
      exact .error _ _ fun h => Int32.not_lt.mpr h.y hy
    · rename_i hy
      exact .ok _ ⟨Int32.not_lt.mp hx, Int32.not_lt.mp hy⟩

theorem Line.check_yields (l : Line) : Yields l.check l.Finite () := by
  unfold check
  split
  · rename_i hslope
    refine .error _ _ fun h => ?_
    simp [h.slope] at hslope
  · rename_i hslope
    split
    · rename_i hintercept
      refine .error _ _ fun h => ?_
      simp [h.intercept] at hintercept
    · rename_i hintercept
      exact .ok _ ⟨by simpa using hslope, by simpa using hintercept⟩

theorem Fault.within_yields {x : Except Fault Unit} {P : Prop} (name : String)
    (h : Yields x P ()) : Yields (Fault.within name x) P () := by
  cases x with
  | ok u =>
    cases u
    exact .ok _ ((h ()).mp rfl).1
  | error e =>
    refine .error _ _ fun hP => ?_
    cases (h ()).mpr ⟨hP, rfl⟩

/-- A formula with its zone and line in order whose constraint names groups only. -/
structure FormulaDraft.WellFormed (groups : List String) (f : FormulaDraft) : Prop where
  zone : f.zone.Ordered
  line : f.line.Finite
  blocked : ∀ o, ∀ name ∈ f.blockedAt o, name ∈ groups

/-- The groups that block a formula in a direction. -/
def FormulaDraft.blockers (groups : List String) (f : FormulaDraft) (o : Orientation) : GroupSet :=
  .ofList ((f.blockedAt o).map (.named groups))

/-- The constraint that a formula stands for. -/
def FormulaDraft.constraint (groups : List String) (f : FormulaDraft) : Constraint :=
  (Orientation.all.map fun o => (o, f.blockers groups o)).foldl (fun c (o, ids) => c.block o ids)
    Constraint.none

/-- The formula that a draft stands for. -/
def FormulaDraft.linked (groups : List String) (f : FormulaDraft) : Formula :=
  ⟨f.name, f.zone, f.line, f.constraint groups⟩

theorem FormulaDraft.link_yields {m : NameMap} {groups : List String} (hm : m.Holds groups)
    (f : FormulaDraft) : Yields (f.link m) (f.WellFormed groups) (f.linked groups) := by
  have hblockers : ∀ o, Yields
      (do let mask ← linkMask m f.name (f.blockedAt o); return (o, mask))
      (∀ name ∈ f.blockedAt o, name ∈ groups) (o, f.blockers groups o) := fun o =>
    (linkMask_yields hm f.name (f.blockedAt o)).map (o, ·)
  refine ((Fault.within_yields f.name f.zone.check_yields).bind fun _ =>
    (Fault.within_yields f.name f.line.check_yields).bind fun _ =>
      (Yields.mapM Orientation.all fun o _ => hblockers o).bind fun _ =>
        .pure (f.linked groups)).congr ?_ fun _ => rfl
  constructor
  · intro ⟨hzone, hline, hblocked, _⟩
    exact ⟨hzone, hline, fun o => hblocked o (Orientation.mem_all o)⟩
  · intro ⟨hzone, hline, hblocked⟩
    exact ⟨hzone, hline, fun o _ => hblocked o, trivial⟩

theorem contains_foldl_block (l : List (Orientation × GroupSet)) (c : Constraint) (o : Orientation)
    (g : GroupId) :
    ((l.foldl (fun c (p, ids) => c.block p ids) c).blockers.get o).contains g = true ↔
      (c.blockers.get o).contains g = true ∨ ∃ ids, (o, ids) ∈ l ∧ ids.contains g = true := by
  induction l generalizing c with
  | nil =>
    constructor
    · exact .inl
    · rintro (h | ⟨_, h, _⟩)
      · exact h
      · cases h
  | cons pair l ih =>
    obtain ⟨p, ids⟩ := pair
    rw [List.foldl_cons, ih]
    dsimp only [Constraint.block]
    rw [Compass.get_set]
    -- The first entry adds to this direction or leaves it alone.
    by_cases hpo : p = o
    · subst hpo
      simp only [if_pos, GroupSet.contains_union, Bool.or_eq_true, or_assoc]
      refine or_congr_right ⟨?_, ?_⟩
      · rintro (h | ⟨ids', hmem, h⟩)
        · exact ⟨ids, List.mem_cons_self, h⟩
        · exact ⟨ids', List.mem_cons_of_mem _ hmem, h⟩
      · intro ⟨ids', hmem, h⟩
        rcases List.mem_cons.mp hmem with heq | hmem
        · cases heq
          exact .inl h
        · exact .inr ⟨ids', hmem, h⟩
    · rw [if_neg hpo]
      refine or_congr_right ⟨?_, ?_⟩
      · intro ⟨ids', hmem, h⟩
        exact ⟨ids', List.mem_cons_of_mem _ hmem, h⟩
      · intro ⟨ids', hmem, h⟩
        rcases List.mem_cons.mp hmem with heq | hmem
        · cases heq
          exact absurd rfl hpo
        · exact ⟨ids', hmem, h⟩

/-- The constraint of a linked formula lists in each direction what its draft names there. -/
theorem FormulaDraft.get_constraint (groups : List String) (f : FormulaDraft) (o : Orientation) :
    (f.constraint groups).blockers.get o = f.blockers groups o := by
  refine GroupSet.ext_contains fun g => Bool.eq_iff_iff.mpr ?_
  simp only [constraint, contains_foldl_block, Constraint.none, Compass.get_fill,
    GroupSet.contains_empty]
  constructor
  · rintro (h | ⟨ids, hmem, h⟩)
    · cases h
    · obtain ⟨p, _, heq⟩ := List.mem_map.mp hmem
      cases heq
      exact h
  · intro h
    exact .inr ⟨_, List.mem_map.mpr ⟨o, Orientation.mem_all o, rfl⟩, h⟩

/-! ### Groups and categories -/

/-- A span with its ends in order; a single picture always is. -/
def TileSpan.Ordered : TileSpan → Prop
  | .single .. => True
  | .run _ first last => first ≤ last

/-- A group with its spans in order that names formulas only. -/
structure GroupDraft.WellFormed (formulas : List String) (g : GroupDraft) : Prop where
  tiles : ∀ span ∈ g.tiles, span.Ordered
  formulas : ∀ name ∈ g.formulas, name ∈ formulas

/-- The group that a draft stands for. -/
def GroupDraft.linked (formulas : List String) (g : GroupDraft) : Group :=
  ⟨g.name, g.tiles, g.formulas.map (.named formulas)⟩

theorem TileSpan.check_yields (owner : String) (span : TileSpan) :
    Yields (span.check owner) span.Ordered () := by
  cases span with
  | single sheet index => exact .ok () trivial
  | run sheet first last =>
    unfold check
    dsimp only
    split
    · rename_i h
      exact .error _ _ fun hle => UInt32.not_lt.mpr hle h
    · rename_i h
      exact .ok () (UInt32.not_lt.mp h)

theorem GroupDraft.link_yields {m : NameMap} {formulas : List String} (hm : m.Holds formulas)
    (g : GroupDraft) : Yields (g.link m) (g.WellFormed formulas) (g.linked formulas) := by
  refine ((Yields.forM g.tiles fun span _ => span.check_yields g.name).bind fun _ =>
    (linkFormulas_yields hm g.name g.formulas).map (Group.mk g.name g.tiles)).congr ?_ fun _ => rfl
  constructor
  · intro ⟨htiles, hformulas⟩
    exact ⟨htiles, hformulas⟩
  · intro ⟨htiles, hformulas⟩
    exact ⟨htiles, hformulas⟩

/-- The groups of a category, each once. -/
def CategoryDraft.groupIds (groups : List String) (c : CategoryDraft) : List GroupId :=
  (c.groups.map (.named groups)).eraseDups

/-- The category that a draft stands for. -/
def CategoryDraft.linked (groups : List Group) (id : RuleSetId) (c : CategoryDraft) : Category :=
  let ids := c.groupIds (groups.map (·.name))
  let formulas := ids.flatMap fun g => (groups[g.index]?.map (·.formulas)).getD []
  ⟨c.name, c.axis, c.offsetX, c.offsetY, ids, .ofList ids, formulas.eraseDups, id⟩

/-- A category of few enough groups gathers the first mentions. -/
theorem CategoryDraft.link_yields {m : NameMap} {groups : List Group}
    (hm : m.Holds (groups.map (·.name))) (hgroups : groups.length ≤ GroupSet.capacity)
    (id : RuleSetId) (c : CategoryDraft) :
    Yields (c.link m groups id) (∀ name ∈ c.groups, name ∈ groups.map (·.name))
      (c.linked groups id) := by
  rw [link_eq]
  refine ((linkGroups_yields hm c.name c.groups).map _).congr Iff.rfl fun hnames => ?_
  have hplaces : ∀ g ∈ c.groups.map (GroupId.named (groups.map (·.name))),
      g.index < GroupSet.capacity := by
    intro g hg
    obtain ⟨name, hname, rfl⟩ := List.mem_map.mp hg
    have hlt := List.idxOf_lt_length_of_mem (hnames name hname)
    rw [List.length_map] at hlt
    exact Nat.lt_of_lt_of_le hlt hgroups
  exact congrArg (c.complete id) (Gathered.foldl_add groups [] _ hplaces)

/-! ### Drafts -/

namespace Draft

/-- The names of the groups. -/
def groupNames (d : Draft) : List String := d.groups.map (·.name)

/-- The names of the formulas. -/
def formulaNames (d : Draft) : List String := d.formulas.map (·.name)

/-- The names of the categories. -/
def categoryNames (d : Draft) : List String := d.categories.map (·.name)

/-- Rules that can be used: not too many groups, no name given twice, every part in order, and
    every reference to something that the draft defines, wherever it stands. -/
structure WellFormed (d : Draft) : Prop where
  groups_le : d.groups.length ≤ GroupSet.capacity
  groupNames_nodup : d.groupNames.Nodup
  formulaNames_nodup : d.formulaNames.Nodup
  categoryNames_nodup : d.categoryNames.Nodup
  formulas : ∀ f ∈ d.formulas, f.WellFormed d.groupNames
  groups : ∀ g ∈ d.groups, g.WellFormed d.formulaNames
  categories : ∀ c ∈ d.categories, ∀ name ∈ c.groups, name ∈ d.groupNames

/-- A draft with the names of a well-formed one is well formed when its parts are. -/
theorem WellFormed.of_names_eq {d d' : Draft} (hd : d.WellFormed)
    (hgroupNames : d'.groupNames = d.groupNames) (hformulaNames : d'.formulaNames = d.formulaNames)
    (hcategoryNames : d'.categoryNames = d.categoryNames)
    (hformulas : ∀ f ∈ d'.formulas, f.WellFormed d.groupNames)
    (hgroups : ∀ g ∈ d'.groups, g.WellFormed d.formulaNames)
    (hcategories : ∀ c ∈ d'.categories, ∀ name ∈ c.groups, name ∈ d.groupNames) :
    d'.WellFormed where
  groups_le := by
    have hlength : d'.groups.length = d.groups.length := by
      simpa only [groupNames, List.length_map] using congrArg List.length hgroupNames
    exact hlength ▸ hd.groups_le
  groupNames_nodup := hgroupNames ▸ hd.groupNames_nodup
  formulaNames_nodup := hformulaNames ▸ hd.formulaNames_nodup
  categoryNames_nodup := hcategoryNames ▸ hd.categoryNames_nodup
  formulas := hgroupNames ▸ hformulas
  groups := hformulaNames ▸ hgroups
  categories := hgroupNames ▸ hcategories

/-- The groups that a draft stands for. -/
def linkedGroups (d : Draft) : List Group := d.groups.map (·.linked d.formulaNames)

/-- The rule set that a draft stands for. -/
def linked (d : Draft) (id : RuleSetId) : RuleSet :=
  ⟨id, d.formulas.map (·.linked d.groupNames), d.linkedGroups,
    d.categories.map (·.linked d.linkedGroups id)⟩

theorem map_name_linkedGroups (d : Draft) : d.linkedGroups.map (·.name) = d.groupNames :=
  List.map_map

theorem map_name_formulas (d : Draft) (id : RuleSetId) :
    (d.linked id).formulas.map (·.name) = d.formulaNames :=
  List.map_map

theorem map_name_categories (d : Draft) (id : RuleSetId) :
    (d.linked id).categories.map (·.name) = d.categoryNames :=
  List.map_map

/-- The rule set that a draft stands for, with the places of its names. -/
def linkedNamed (d : Draft) (id : RuleSetId) : NamedRules where
  rules := d.linked id
  formulaNames := (∅ : NameMap).insertAll 0 d.formulaNames
  groupNames := (∅ : NameMap).insertAll 0 d.groupNames
  categoryNames := (∅ : NameMap).insertAll 0 d.categoryNames

/-- Everything after the names of the groups. -/
theorem linkParts_yields {d : Draft} (hfew : d.groups.length ≤ GroupSet.capacity)
    (hgroupNames : d.groupNames.Nodup) (id : RuleSetId) :
    Yields (d.linkParts id ((∅ : NameMap).insertAll 0 d.groupNames))
      ((d.formulaNames.Nodup ∧ ∀ f ∈ d.formulas, f.WellFormed d.groupNames) ∧
        (∀ g ∈ d.groups, g.WellFormed d.formulaNames) ∧
          d.categoryNames.Nodup ∧ ∀ c ∈ d.categories, ∀ name ∈ c.groups, name ∈ d.groupNames)
      (d.linkedNamed id) := by
  have hnames := NameMap.holds_insertAll hgroupNames
  have hformulas := linkEach_empty_yields FormulaDraft.name .duplicateFormula
    (FormulaDraft.link_yields hnames) d.formulas
  have hgroups : d.formulaNames.Nodup → Yields
      (d.groups.mapM (GroupDraft.link ((∅ : NameMap).insertAll 0 d.formulaNames)))
      (∀ g ∈ d.groups, g.WellFormed d.formulaNames) d.linkedGroups := fun hformulaNames =>
    .mapM d.groups fun g _ => g.link_yields (NameMap.holds_insertAll hformulaNames)
  have hlength : d.linkedGroups.length ≤ GroupSet.capacity := by
    rw [linkedGroups, List.length_map]
    exact hfew
  have hcategory := CategoryDraft.link_yields (d.map_name_linkedGroups ▸ hnames) hlength id
  rw [map_name_linkedGroups] at hcategory
  have hcategories := linkEach_empty_yields CategoryDraft.name .duplicateCategory hcategory
    d.categories
  exact hformulas.bind fun h => (hgroups h.1).bind fun _ => hcategories.map _

/-- Linking succeeds on the well-formed drafts, and then with the rule set that they stand for and
    the places of their names. -/
theorem linkNamed_yields (d : Draft) (id : RuleSetId) :
    Yields (d.linkNamed id) d.WellFormed (d.linkedNamed id) := by
  unfold linkNamed
  dsimp only
  split
  · rename_i hmany
    refine .error _ _ fun h => ?_
    exact absurd h.groups_le (Nat.not_le.mpr hmany)
  · rename_i hfew
    have hfew := Nat.not_lt.mp hfew
    have hgroupNames := linkEach_empty_yields GroupDraft.name .duplicateGroup
      (fun g => .ok g trivial) d.groups
    refine (hgroupNames.bind fun h => linkParts_yields hfew h.1 id).congr ?_ fun _ => rfl
    constructor
    · intro ⟨⟨hgroupNames, _⟩, ⟨hformulaNames, hformulas⟩, hgroups, hcategoryNames, hcategories⟩
      exact ⟨hfew, hgroupNames, hformulaNames, hcategoryNames, hformulas, hgroups, hcategories⟩
    · intro h
      exact ⟨⟨h.groupNames_nodup, fun _ _ => trivial⟩, ⟨h.formulaNames_nodup, h.formulas⟩,
        h.groups, h.categoryNames_nodup, h.categories⟩

theorem link_yields (d : Draft) (id : RuleSetId) :
    Yields (d.link id) d.WellFormed (d.linked id) :=
  (d.linkNamed_yields id).map NamedRules.rules

/-- The names entered while a draft is linked are found where a search in the lists of the rule set
    finds them, and no others are found. -/
theorem ids_linkNamed {d : Draft} {id : RuleSetId} {named : NamedRules}
    (h : d.linkNamed id = .ok named) (name : String) :
    named.formulaId? name = named.rules.formulaId? name ∧
      named.groupId? name = named.rules.groupId? name ∧
        named.categoryId? name = named.rules.categoryId? name := by
  obtain ⟨hd, rfl⟩ := (d.linkNamed_yields id named).mp h
  have hformula := NameMap.get?_insertAll (d.map_name_formulas id) hd.formulaNames_nodup name
  have hgroup := NameMap.get?_insertAll d.map_name_linkedGroups hd.groupNames_nodup name
  have hcategory := NameMap.get?_insertAll (d.map_name_categories id) hd.categoryNames_nodup name
  exact ⟨congrArg (Option.map FormulaId.mk) hformula, congrArg (Option.map GroupId.mk) hgroup,
    congrArg (Option.map CategoryId.mk) hcategory⟩

theorem link_eq_ok_iff {d : Draft} {id : RuleSetId} {r : RuleSet} :
    d.link id = .ok r ↔ d.WellFormed ∧ r = d.linked id :=
  d.link_yields id r

instance : DecidablePred WellFormed := fun d =>
  decidable_of_iff ((d.link ⟨0⟩).toOption.isSome = true) (by
    have hyields := d.link_yields ⟨0⟩
    cases h : d.link ⟨0⟩ with
    | ok r => exact iff_of_true rfl ((hyields r).mp h).1
    | error e =>
      refine iff_of_false Bool.false_ne_true fun hd => ?_
      cases h.symm.trans ((hyields _).mpr ⟨hd, rfl⟩))

/-- A draft is accepted exactly when it is well formed. -/
theorem accepted_iff_wellFormed (d : Draft) (id : RuleSetId) :
    (∃ r, d.link id = .ok r) ↔ d.WellFormed := by
  constructor
  · intro ⟨r, h⟩
    exact (link_eq_ok_iff.mp h).1
  · intro h
    exact ⟨d.linked id, link_eq_ok_iff.mpr ⟨h, rfl⟩⟩

/-- A floor that a block above it switches off, and a slope that is left then. -/
def ledge : Draft where
  formulas := [
    (FormulaDraft.new "floor" ⟨.y, 0, 15, 15, 15⟩ ⟨.ofInt 0, .ofInt 16⟩).blockedBy .top "block",
    .new "low" ⟨.y, 0, 15, 15, 15⟩ ⟨.ofInt 1, .ofInt 4⟩]
  groups := [⟨"top", [.single 0 1], ["floor", "low"]⟩, ⟨"block", [.single 0 2], []⟩]
  categories := [⟨"feet", .y, 0, 0, ["top"]⟩]

theorem link_ledge (id : RuleSetId) : ledge.link id = .ok (ledge.linked id) := by
  refine link_eq_ok_iff.mpr ⟨?_, rfl⟩
  decide +kernel

end Draft
end Terrain
