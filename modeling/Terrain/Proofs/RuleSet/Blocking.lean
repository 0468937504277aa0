import Terrain.Proofs.RuleSet.Gathering
import Terrain.Proofs.RuleSet.ReadBack

/-! ## Blocking calls

A formula may be written as one that nothing switches off, followed by calls that name one blocking
group each. However the calls are ordered and repeated, in every direction the linked formula is
blocked by the groups that are named there and by no others. -/

namespace Terrain

/-! ### Calls -/

namespace FormulaDraft

/-- The formula after several calls, given by their directions and groups. -/
def blockedByAll (f : FormulaDraft) (calls : List (Orientation × String)) : FormulaDraft :=
  calls.foldl (fun f call => f.blockedBy call.1 call.2) f

/-- A call adds its group at the end of one direction. -/
theorem blockedAt_blockedBy (f : FormulaDraft) (o p : Orientation) (group : String) :
    (f.blockedBy o group).blockedAt p = f.blockedAt p ++ if o = p then [group] else [] := by
  rw [blockedAt, blockedBy, Compass.get_set]
  split
  · rename_i hop
    rw [Option.getD_some, hop]
  · rw [List.append_nil, blockedAt]

/-- Several calls leave in a direction what they name there, in their order. -/
theorem blockedAt_blockedByAll (f : FormulaDraft) (calls : List (Orientation × String))
    (p : Orientation) :
    (f.blockedByAll calls).blockedAt p = f.blockedAt p ++ (calls.filter (·.1 = p)).map (·.2) := by
  induction calls generalizing f with
  | nil => simp [blockedByAll]
  | cons call calls ih =>
    obtain ⟨o, group⟩ := call
    rw [blockedByAll, List.foldl_cons, ← blockedByAll, ih, blockedAt_blockedBy, List.append_assoc]
    by_cases hop : o = p <;> simp [hop]

/-- No call changes anything else. -/
theorem blockedByAll_keeps (f : FormulaDraft) (calls : List (Orientation × String)) :
    (f.blockedByAll calls).name = f.name ∧ (f.blockedByAll calls).zone = f.zone ∧
      (f.blockedByAll calls).line = f.line := by
  induction calls generalizing f with
  | nil => exact ⟨rfl, rfl, rfl⟩
  | cons call calls ih => exact ih (f.blockedBy call.1 call.2)

end FormulaDraft

/-- A formula as the calls that write it. -/
structure FormulaScript where
  name : String
  zone : Zone
  line : Line
  /-- The directions and groups in the order in which they are named. -/
  calls : List (Orientation × String)

namespace FormulaScript

/-- The formula that the calls write. -/
def draft (s : FormulaScript) : FormulaDraft :=
  (FormulaDraft.new s.name s.zone s.line).blockedByAll s.calls

variable (s : FormulaScript)

theorem mem_blockedAt_draft {o : Orientation} {name : String} :
    name ∈ s.draft.blockedAt o ↔ (o, name) ∈ s.calls := by
  rw [draft, FormulaDraft.blockedAt_blockedByAll]
  simp [FormulaDraft.blockedAt, FormulaDraft.new]

/-- Scripts that differ in the order and the number of their calls write the same rule. -/
theorem sameRule_draft {calls : List (Orientation × String)}
    (h : ∀ call, call ∈ calls ↔ call ∈ s.calls) :
    s.draft.SameRule { s with calls := calls }.draft := by
  let free := FormulaDraft.new s.name s.zone s.line
  obtain ⟨hname, hzone, hline⟩ := free.blockedByAll_keeps s.calls
  obtain ⟨hname', hzone', hline'⟩ := free.blockedByAll_keeps calls
  refine ⟨hname'.trans hname.symm, hzone'.trans hzone.symm, hline'.trans hline.symm, ?_⟩
  intro o name
  rw [mem_blockedAt_draft, mem_blockedAt_draft]
  exact h (o, name)

end FormulaScript

/-! ### Constraints -/

/-- The formula is blocked by the groups that the calls name, each in the direction of its call. -/
structure Formula.BlockedBy (r : RuleSet) (calls : List (Orientation × String)) (f : Formula) :
    Prop where
  /-- Every call names a group. -/
  exists_group : ∀ {o name}, (o, name) ∈ calls → ∃ g, r.groupId? name = some g
  contains_blockers_iff : ∀ {o g}, (f.constraint.blockers.get o).contains g = true ↔
    ∃ name, (o, name) ∈ calls ∧ r.groupId? name = some g
  isUnconstrained_iff : f.constraint.isUnconstrained = true ↔ calls = []
  isBlocked_iff : ∀ {o m}, f.constraint.isBlocked o m = true ↔
    ∃ name g, (o, name) ∈ calls ∧ r.groupId? name = some g ∧ m.contains g = true

theorem Constraint.isUnconstrained_iff {c : Constraint} :
    c.isUnconstrained = true ↔ ∀ o g, (c.blockers.get o).contains g = false := by
  rw [isUnconstrained, List.all_eq_true]
  constructor
  · intro h o
    exact GroupSet.isEmpty_iff.mp (h o (Orientation.mem_all o))
  · intro h o _
    exact GroupSet.isEmpty_iff.mpr (h o)

/-- The members of its sets say everything about a constraint. -/
theorem Formula.BlockedBy.of_contains_blockers {r : RuleSet} {f : Formula}
    {calls : List (Orientation × String)}
    (hgroup : ∀ {o name}, (o, name) ∈ calls → ∃ g, r.groupId? name = some g)
    (h : ∀ {o g}, (f.constraint.blockers.get o).contains g = true ↔
      ∃ name, (o, name) ∈ calls ∧ r.groupId? name = some g) : f.BlockedBy r calls where
  exists_group := hgroup
  contains_blockers_iff := h
  isUnconstrained_iff := by
    rw [Constraint.isUnconstrained_iff]
    constructor
    · intro hnone
      refine List.eq_nil_iff_forall_not_mem.mpr fun call hcall => ?_
      obtain ⟨g, hg⟩ := hgroup hcall
      have hcontains := h.mpr ⟨call.2, hcall, hg⟩
      rw [hnone call.1 g] at hcontains
      cases hcontains
    · rintro rfl o g
      refine Bool.eq_false_iff.mpr fun hcontains => ?_
      obtain ⟨_, hcall, _⟩ := h.mp hcontains
      exact List.not_mem_nil hcall
  isBlocked_iff := by
    intro o m
    rw [Constraint.isBlocked, GroupSet.intersects_iff]
    constructor
    · intro ⟨g, hcontains, hm⟩
      obtain ⟨name, hcall, hg⟩ := h.mp hcontains
      exact ⟨name, g, hcall, hg, hm⟩
    · intro ⟨name, g, hcall, hg, hm⟩
      exact ⟨g, h.mpr ⟨name, hcall, hg⟩, hm⟩

/-! ### Drafts -/

theorem map_set_eq {α β : Type} {g : α → β} {l : List α} {k : Nat} {a b : α}
    (hk : l[k]? = some a) (h : g b = g a) : (l.set k b).map g = l.map g := by
  obtain ⟨hlt, rfl⟩ := List.getElem?_eq_some_iff.mp hk
  rw [List.map_set, h, ← List.getElem_map g, List.set_getElem_self]
  simpa using hlt

namespace Draft

variable {d : Draft} {id : RuleSetId}

theorem groupId?_linked_iff {name : String} (h : name ∈ d.groupNames) {g : GroupId} :
    (d.linked id).groupId? name = some g ↔ GroupId.named d.groupNames name = g := by
  rw [groupId?_linked h, Option.some_inj]

theorem WellFormed.blockedBy (hd : d.WellFormed) {s : FormulaScript} (hs : s.draft ∈ d.formulas)
    (id : RuleSetId) :
    (s.draft.linked d.groupNames).BlockedBy (d.linked id) s.calls := by
  have hknown : ∀ {o name}, (o, name) ∈ s.calls → name ∈ d.groupNames := fun {o name} hcall =>
    (hd.formulas s.draft hs).blocked o name (s.mem_blockedAt_draft.mpr hcall)
  refine .of_contains_blockers (fun hcall => ⟨_, groupId?_linked (hknown hcall)⟩) ?_
  intro o g
  rw [FormulaDraft.linked, FormulaDraft.get_constraint, FormulaDraft.contains_blockers_iff]
  constructor
  · rintro ⟨⟨name, hname, hg⟩, _⟩
    have hcall := s.mem_blockedAt_draft.mp hname
    exact ⟨name, hcall, (groupId?_linked_iff (hknown hcall)).mpr hg⟩
  · rintro ⟨name, hcall, hg⟩
    obtain rfl := (groupId?_linked_iff (hknown hcall)).mp hg
    -- There are no more groups than a set can hold.
    have hlt := idxOf_lt_of_mem_groupNames (hknown hcall)
    exact ⟨⟨name, s.mem_blockedAt_draft.mpr hcall, rfl⟩, Nat.lt_of_lt_of_le hlt hd.groups_le⟩

/-- A formula may be written in another way, if it names the same groups in each direction. -/
theorem WellFormed.link_set (hd : d.WellFormed) {k : Nat} {f f' : FormulaDraft}
    (hk : d.formulas[k]? = some f) (h : f.SameRule f') :
    ({ d with formulas := d.formulas.set k f' } : Draft).link id = .ok (d.linked id) := by
  let d' : Draft := { d with formulas := d.formulas.set k f' }
  have hnames : d'.formulaNames = d.formulaNames := map_set_eq hk h.name_eq
  have hformulas : d'.formulas.map (·.linked d.groupNames) =
      d.formulas.map (·.linked d.groupNames) := map_set_eq hk (h.linked_eq _)
  have hgroups : d'.linkedGroups = d.linkedGroups := by
    rw [linkedGroups, hnames, linkedGroups]
  refine link_eq_ok_iff.mpr ⟨?_, ?_⟩
  · refine hd.of_names_eq rfl hnames rfl (fun g hg => ?_) hd.groups hd.categories
    rcases List.mem_or_eq_of_mem_set hg with hg | rfl
    · exact hd.formulas g hg
    · exact h.wellFormed (hd.formulas f (List.mem_of_getElem? hk))
  · show d.linked id = d'.linked id
    rw [linked, linked, hgroups, ← hformulas]
    rfl

/-- In an accepted draft the calls decide which groups block a formula. Their order and their number
    do not matter. A formula counts as constrained when there is a call at all. -/
theorem link_scripted {r : RuleSet} (h : d.link id = .ok r) :
    (∀ k (s : FormulaScript), d.formulas[k]? = some s.draft →
      (∃ f, r.formula? ⟨k⟩ = some f ∧ f.BlockedBy r s.calls) ∧
        ∀ calls, (∀ call, call ∈ calls ↔ call ∈ s.calls) →
          ({ d with formulas := d.formulas.set k { s with calls := calls }.draft } : Draft).link id =
            .ok r) ∧
      ∀ scripts : List FormulaScript, d.formulas = scripts.map (·.draft) →
        r.stats.constrained = scripts.countP (!·.calls.isEmpty) := by
  obtain ⟨hd, rfl⟩ := link_eq_ok_iff.mp h
  refine ⟨fun k s hk => ⟨⟨s.draft.linked d.groupNames, ?_, ?_⟩, fun calls hcalls => ?_⟩, ?_⟩
  · simp only [RuleSet.formula?, linked, List.getElem?_map, hk, Option.map_some]
  · exact hd.blockedBy (List.mem_of_getElem? hk) id
  · exact hd.link_set hk (s.sameRule_draft hcalls)
  · intro scripts hscripts
    simp only [RuleSet.stats, linked, hscripts, List.countP_map]
    refine List.countP_congr fun s hs => ?_
    have hs' : s.draft ∈ d.formulas := hscripts ▸ List.mem_map_of_mem hs
    have hfree := (hd.blockedBy hs' id).isUnconstrained_iff
    simp only [Function.comp_apply, Bool.not_eq_true', Bool.eq_false_iff, ne_eq, hfree,
      List.isEmpty_iff]

/-- A floor that is blocked twice by what is above it, and once by what is to the left of it. -/
theorem link_scripted_ledge :
    let floor : FormulaScript := ⟨"floor", ⟨.y, 0, 15, 15, 15⟩, ⟨.ofInt 0, .ofInt 16⟩,
      [(.top, "block"), (.left, "top"), (.top, "block")]⟩
    let low : FormulaScript := ⟨"low", ⟨.y, 0, 15, 15, 15⟩, ⟨.ofInt 1, .ofInt 4⟩, []⟩
    let once : FormulaScript := { floor with calls := [(.left, "top"), (.top, "block")] }
    let d : Draft := { ledge with formulas := [floor, low].map (·.draft) }
    let r := d.linked ⟨1⟩
    d.link ⟨1⟩ = .ok r ∧ d.formulas[0]? = some floor.draft ∧
      (∃ f, r.formula? ⟨0⟩ = some f ∧ f.BlockedBy r floor.calls) ∧
      ({ d with formulas := d.formulas.set 0 once.draft } : Draft).link ⟨1⟩ = .ok r ∧
      r.stats.constrained = 1 := by
  intro floor low once d r
  have hlink : d.link ⟨1⟩ = .ok r := by
    refine link_eq_ok_iff.mpr ⟨?_, rfl⟩
    decide +kernel
  obtain ⟨hformulas, hcount⟩ := link_scripted hlink
  obtain ⟨hfloor, hrepeat⟩ := hformulas 0 floor rfl
  have hcalls : ∀ call, call ∈ once.calls ↔ call ∈ floor.calls := by
    intro call
    simp only [once, floor, List.mem_cons, List.not_mem_nil, or_false]
    tauto
  exact ⟨hlink, rfl, hfloor, hrepeat once.calls hcalls, hcount [floor, low] rfl⟩

end Draft
end Terrain
