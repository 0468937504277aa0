import Mathlib.Data.List.Find
import Mathlib.Data.List.Nodup
import Terrain.Proofs.RuleSet.Naming

/-! ## Relabelling

What rules say does not depend on what their parts are called, nor on the order in which the parts
are defined. The order in which a group lists its formulas and a category its groups stays, because
it decides which formula is tried first. -/

namespace Terrain

/-! ### Renaming -/

/-- New names for formulas, groups and categories. Different names stay different. -/
structure Renaming where
  formula : String → String
  group : String → String
  category : String → String
  formula_injective : Function.Injective formula
  group_injective : Function.Injective group
  category_injective : Function.Injective category

def FormulaDraft.rename (ρ : Renaming) (f : FormulaDraft) : FormulaDraft :=
  ⟨ρ.formula f.name, f.zone, f.line, f.blocked.map (Option.map (List.map ρ.group))⟩

def GroupDraft.rename (ρ : Renaming) (g : GroupDraft) : GroupDraft :=
  ⟨ρ.group g.name, g.tiles, g.formulas.map ρ.formula⟩

def CategoryDraft.rename (ρ : Renaming) (c : CategoryDraft) : CategoryDraft :=
  ⟨ρ.category c.name, c.axis, c.offsetX, c.offsetY, c.groups.map ρ.group⟩

/-- The other draft has the definitions of the first one under their new names, in any order. -/
structure Draft.Relabelled (ρ : Renaming) (d d' : Draft) : Prop where
  formulas : d'.formulas.Perm (d.formulas.map (·.rename ρ))
  groups : d'.groups.Perm (d.groups.map (·.rename ρ))
  categories : d'.categories.Perm (d.categories.map (·.rename ρ))

variable {ρ : Renaming}

namespace FormulaDraft

theorem name_rename (f : FormulaDraft) : (f.rename ρ).name = ρ.formula f.name := rfl

theorem blockedAt_rename (f : FormulaDraft) (o : Orientation) :
    (f.rename ρ).blockedAt o = (f.blockedAt o).map ρ.group := by
  simp only [blockedAt, rename, Compass.get_map]
  cases f.blocked.get o with
  | none => rfl
  | some names => rfl

theorem rename_wellFormed_iff {groups groups' : List String} {f : FormulaDraft}
    (h : ∀ name, ρ.group name ∈ groups' ↔ name ∈ groups) :
    (f.rename ρ).WellFormed groups' ↔ f.WellFormed groups := by
  have hblocked : (∀ o, ∀ name ∈ (f.rename ρ).blockedAt o, name ∈ groups') ↔
      ∀ o, ∀ name ∈ f.blockedAt o, name ∈ groups := by
    simp only [blockedAt_rename, List.forall_mem_map, h]
  constructor
  · intro hf
    exact ⟨hf.zone, hf.line, hblocked.mp hf.blocked⟩
  · intro hf
    exact ⟨hf.zone, hf.line, hblocked.mpr hf.blocked⟩

theorem fires_rename {f : FormulaDraft} {around around' : Orientation → String → Bool}
    (h : ∀ o, ∀ name ∈ f.blockedAt o, around o name = around' o (ρ.group name)) (axis : Axis)
    (p : Pixel) : (f.rename ρ).fires axis p around' = f.fires axis p around := by
  have hblocked : (f.rename ρ).blockedAmid around' =
      f.blockedAmid fun o name => around' o (ρ.group name) := by
    simp only [blockedAmid, blockedAt_rename, List.any_map, Function.comp_def]
  rw [fires_congr h]
  unfold fires
  rw [hblocked]
  rfl

end FormulaDraft

theorem GroupDraft.name_rename (g : GroupDraft) : (g.rename ρ).name = ρ.group g.name := rfl

theorem CategoryDraft.name_rename (c : CategoryDraft) :
    (c.rename ρ).name = ρ.category c.name := rfl

theorem GroupDraft.rename_wellFormed_iff {formulas formulas' : List String} {g : GroupDraft}
    (h : ∀ name, ρ.formula name ∈ formulas' ↔ name ∈ formulas) :
    (g.rename ρ).WellFormed formulas' ↔ g.WellFormed formulas := by
  have hformulas : (∀ name ∈ (g.rename ρ).formulas, name ∈ formulas') ↔
      ∀ name ∈ g.formulas, name ∈ formulas := by
    simp only [rename, List.forall_mem_map, h]
  constructor
  · intro hg
    exact ⟨hg.tiles, hformulas.mp hg.formulas⟩
  · intro hg
    exact ⟨hg.tiles, hformulas.mpr hg.formulas⟩

/-! ### Entries of distinct names -/

/-- Entries of distinct names are found in whatever order they stand. -/
theorem find?_perm {α : Type} {key : α → String} {l l' : List α} (h : l.Perm l')
    (hnodup : (l.map key).Nodup) (name : String) :
    l.find? (key · == name) = l'.find? (key · == name) := by
  induction h with
  | nil => rfl
  | cons a _ ih =>
    simp only [List.find?_cons, ih (List.nodup_cons.mp hnodup).2]
  | swap a b l =>
    -- The two have different names, so at most one of them is sought.
    simp only [List.find?_cons]
    cases ha : key a == name with
    | false => rfl
    | true =>
      cases hb : key b == name with
      | false => rfl
      | true =>
        have heq : key b = key a := (beq_iff_eq.mp hb).trans (beq_iff_eq.mp ha).symm
        exact absurd (heq ▸ List.mem_cons_self) (List.nodup_cons.mp hnodup).1
  | trans h _ ih ih' => exact (ih hnodup).trans (ih' ((h.map key).nodup hnodup))

section

variable {α : Type} {key : α → String} {rename : α → α} {φ : String → String} {l l' : List α}

theorem names_perm (hkey : ∀ a, key (rename a) = φ (key a)) (h : l'.Perm (l.map rename)) :
    (l'.map key).Perm ((l.map key).map φ) := by
  have hnames := h.map key
  simp only [List.map_map, Function.comp_def, hkey] at hnames
  simp only [List.map_map, Function.comp_def]
  exact hnames

variable (hφ : Function.Injective φ) (hkey : ∀ a, key (rename a) = φ (key a))
  (h : l'.Perm (l.map rename))

include hφ hkey h

theorem mem_names_iff (name : String) : φ name ∈ l'.map key ↔ name ∈ l.map key :=
  (names_perm hkey h).mem_iff.trans (List.mem_map_of_injective hφ)

theorem nodup_names_iff : (l'.map key).Nodup ↔ (l.map key).Nodup :=
  (names_perm hkey h).nodup_iff.trans (List.nodup_map_iff hφ)

/-- Renamed and reordered entries of distinct names are found under their new names. -/
theorem find?_relabelled (hnodup : (l.map key).Nodup) (name : String) :
    l'.find? (key · == φ name) = (l.find? (key · == name)).map rename := by
  have hsame : (fun a => key (rename a) == φ name) = fun a => key a == name := by
    funext a
    refine Bool.eq_iff_iff.mpr ?_
    rw [beq_iff_eq, beq_iff_eq, hkey, hφ.eq_iff]
  rw [find?_perm h ((nodup_names_iff hφ hkey h).mpr hnodup), List.find?_map]
  exact congrArg (fun q => (l.find? q).map rename) hsame

end

/-! ### Relabelled drafts -/

namespace Draft.Relabelled

variable {d d' : Draft}

theorem mem_groupNames_iff (h : Relabelled ρ d d') (name : String) :
    ρ.group name ∈ d'.groupNames ↔ name ∈ d.groupNames :=
  mem_names_iff ρ.group_injective GroupDraft.name_rename h.groups name

theorem mem_formulaNames_iff (h : Relabelled ρ d d') (name : String) :
    ρ.formula name ∈ d'.formulaNames ↔ name ∈ d.formulaNames :=
  mem_names_iff ρ.formula_injective FormulaDraft.name_rename h.formulas name

theorem wellFormed_iff (h : Relabelled ρ d d') : d'.WellFormed ↔ d.WellFormed := by
  have hlength : d'.groups.length = d.groups.length :=
    h.groups.length_eq.trans (List.length_map _)
  have hgroupNames : d'.groupNames.Nodup ↔ d.groupNames.Nodup :=
    nodup_names_iff ρ.group_injective GroupDraft.name_rename h.groups
  have hformulaNames : d'.formulaNames.Nodup ↔ d.formulaNames.Nodup :=
    nodup_names_iff ρ.formula_injective FormulaDraft.name_rename h.formulas
  have hcategoryNames : d'.categoryNames.Nodup ↔ d.categoryNames.Nodup :=
    nodup_names_iff ρ.category_injective CategoryDraft.name_rename h.categories
  have hformulas : (∀ f ∈ d'.formulas, f.WellFormed d'.groupNames) ↔
      ∀ f ∈ d.formulas, f.WellFormed d.groupNames := by
    simp only [h.formulas.mem_iff, List.forall_mem_map,
      FormulaDraft.rename_wellFormed_iff h.mem_groupNames_iff]
  have hgroups : (∀ g ∈ d'.groups, g.WellFormed d'.formulaNames) ↔
      ∀ g ∈ d.groups, g.WellFormed d.formulaNames := by
    simp only [h.groups.mem_iff, List.forall_mem_map,
      GroupDraft.rename_wellFormed_iff h.mem_formulaNames_iff]
  have hcategories : (∀ c ∈ d'.categories, ∀ name ∈ c.groups, name ∈ d'.groupNames) ↔
      ∀ c ∈ d.categories, ∀ name ∈ c.groups, name ∈ d.groupNames := by
    simp only [h.categories.mem_iff, List.forall_mem_map, CategoryDraft.rename,
      h.mem_groupNames_iff]
  constructor
  · intro hd
    exact ⟨hlength ▸ hd.groups_le, hgroupNames.mp hd.groupNames_nodup,
      hformulaNames.mp hd.formulaNames_nodup, hcategoryNames.mp hd.categoryNames_nodup,
      hformulas.mp hd.formulas, hgroups.mp hd.groups, hcategories.mp hd.categories⟩
  · intro hd
    exact ⟨hlength ▸ hd.groups_le, hgroupNames.mpr hd.groupNames_nodup,
      hformulaNames.mpr hd.formulaNames_nodup, hcategoryNames.mpr hd.categoryNames_nodup,
      hformulas.mpr hd.formulas, hgroups.mpr hd.groups, hcategories.mpr hd.categories⟩

section

variable (h : Relabelled ρ d d') (hd : d.WellFormed)

include h hd

theorem formulaNamed? (name : String) :
    d'.formulaNamed? (ρ.formula name) = (d.formulaNamed? name).map (·.rename ρ) :=
  find?_relabelled ρ.formula_injective FormulaDraft.name_rename h.formulas hd.formulaNames_nodup
    name

theorem groupNamed? (name : String) :
    d'.groupNamed? (ρ.group name) = (d.groupNamed? name).map (·.rename ρ) :=
  find?_relabelled ρ.group_injective GroupDraft.name_rename h.groups hd.groupNames_nodup name

theorem categoryNamed? (name : String) :
    d'.categoryNamed? (ρ.category name) = (d.categoryNamed? name).map (·.rename ρ) :=
  find?_relabelled ρ.category_injective CategoryDraft.name_rename h.categories
    hd.categoryNames_nodup name

theorem formulasOf (name : String) :
    d'.formulasOf (ρ.group name) = (d.formulasOf name).map (·.rename ρ) := by
  unfold Draft.formulasOf
  rw [h.groupNamed? hd]
  cases d.groupNamed? name with
  | none => rfl
  | some g =>
    simp only [Option.map_some, GroupDraft.rename, List.filterMap_map, List.map_filterMap]
    exact congrArg (List.filterMap · g.formulas) (funext fun name => h.formulaNamed? hd name)

theorem covers (name : String) (picture : TileId) :
    d.covers name picture = d'.covers (ρ.group name) picture := by
  unfold Draft.covers
  rw [h.groupNamed? hd]
  cases d.groupNamed? name with
  | none => rfl
  | some g => rfl

variable {c : CategoryDraft} {own own' : String → Bool}
  {around around' : Orientation → String → Bool}

theorem candidates (hown : ∀ name ∈ c.groups, own name = own' (ρ.group name)) :
    d'.candidates (c.rename ρ) own' = (d.candidates c own).map (·.rename ρ) := by
  have hgroups : (c.groups.map ρ.group).eraseDups = c.groups.eraseDups.map ρ.group :=
    eraseDups_map c.groups fun _ _ _ _ heq => ρ.group_injective heq
  have hfilter : c.groups.eraseDups.filter (own' ∘ ρ.group) = c.groups.eraseDups.filter own :=
    List.filter_congr fun name hname => (hown name (List.mem_eraseDups.mp hname)).symm
  simp only [Draft.candidates, CategoryDraft.rename, hgroups, List.filter_map, hfilter,
    List.flatMap_map, List.map_flatMap]
  exact congrArg (List.flatMap · _) (funext fun name => h.formulasOf hd name)

/-- A relabelled category answers as before, wherever groups stand under their new names. -/
theorem answer (hc : c ∈ d.categories)
    (hown : ∀ name ∈ d.groupNames, own name = own' (ρ.group name))
    (haround : ∀ o, ∀ name ∈ d.groupNames, around o name = around' o (ρ.group name)) (p : Pixel) :
    d.answer c own around p = d'.answer (c.rename ρ) own' around' p := by
  have hfires : ∀ f ∈ d.candidates c own,
      f.fires c.axis p around = (f.rename ρ).fires c.axis p around' := by
    intro f hf
    -- A candidate is defined in the draft, so only groups of the draft block it.
    have hblocked := (hd.formulas f (mem_formulas_of_mem_candidates hf)).blocked
    exact (FormulaDraft.fires_rename (fun o name hname => haround o name (hblocked o name hname))
      c.axis p).symm
  unfold Draft.answer
  rw [h.candidates hd fun name hname => hown name (hd.categories c hc name hname),
    List.find?_map, List.find?_congr hfires, Option.map_map]
  rfl

theorem sameOnMaps (hc : c ∈ d.categories) (id id' : RuleSetId) :
    (c.linked d.linkedGroups id).SameOnMaps ((c.rename ρ).linked d'.linkedGroups id') (d.linked id)
      (d'.linked id') := by
  have hc' : c.rename ρ ∈ d'.categories := h.categories.mem_iff.mpr (List.mem_map_of_mem hc)
  refine sameOnMaps_of_answer hd (h.wellFormed_iff.mpr hd) hc hc' rfl rfl rfl ρ.group ?_ ?_ id id'
  · intro name _ picture
    exact h.covers hd name picture
  · intro own own' around around' hown haround p
    exact h.answer hd hc hown haround p

end

/-- A relabelled draft is accepted exactly when the draft is, and then each category finds on all
    maps what it finds there under its new name. -/
theorem link_relabelled (h : Relabelled ρ d d') (id id' : RuleSetId) :
    ((∃ r, d.link id = .ok r) ↔ ∃ r', d'.link id' = .ok r') ∧
      ∀ {r r'}, d.link id = .ok r → d'.link id' = .ok r' → ∀ name,
        Option.Rel (fun c c' => c.SameOnMaps c' r r') (r.categoryNamed? name)
          (r'.categoryNamed? (ρ.category name)) := by
  constructor
  · simp only [link_eq_ok_iff, exists_and_left, exists_eq, and_true]
    exact h.wellFormed_iff.symm
  · intro r r' hr hr' name
    obtain ⟨hd, rfl⟩ := link_eq_ok_iff.mp hr
    obtain ⟨_, rfl⟩ := link_eq_ok_iff.mp hr'
    rw [categoryNamed?_linked, categoryNamed?_linked, h.categoryNamed? hd]
    cases hc : d.categoryNamed? name with
    | none => exact .none
    | some c => exact .some (h.sameOnMaps hd (List.mem_of_find?_eq_some hc) id id')

/-- The ledge with new names for everything and each list of definitions turned around, so that
    either group takes the place of the other. On a ledge under a block, feet that fall are stopped
    by the slope under either name. -/
theorem link_relabelled_ledge :
    let ρ : Renaming :=
      ⟨("a " ++ ·), ("the " ++ ·), ("bare " ++ ·), fun _ _ => (String.append_right_inj _).mp,
        fun _ _ => (String.append_right_inj _).mp, fun _ _ => (String.append_right_inj _).mp⟩
    let turned : Draft := {
      formulas := [
        .new "a low" ⟨.y, 0, 15, 15, 15⟩ ⟨.ofInt 1, .ofInt 4⟩,
        (FormulaDraft.new "a floor" ⟨.y, 0, 15, 15, 15⟩ ⟨.ofInt 0, .ofInt 16⟩).blockedBy .top
          "the block"]
      groups := [⟨"the block", [.single 0 2], []⟩,
        ⟨"the top", [.single 0 1], ["a floor", "a low"]⟩]
      categories := [⟨"bare feet", .y, 0, 0, ["the top"]⟩] }
    let r := ledge.linked ⟨1⟩
    let r' := turned.linked ⟨2⟩
    let feet : Category := ⟨"feet", .y, 0, 0, [⟨0⟩], ⟨1⟩, [⟨0⟩, ⟨1⟩], ⟨1⟩⟩
    let feet' : Category := ⟨"bare feet", .y, 0, 0, [⟨1⟩], ⟨2⟩, [⟨1⟩, ⟨0⟩], ⟨2⟩⟩
    let tiles : Array (Option TileId) := #[some ⟨0, 2⟩, some ⟨0, 1⟩]
    let m : TileMap := ⟨1, 2, 16, 16, #[some ⟨⟨0, 2⟩, ⟨2⟩⟩, some ⟨⟨0, 1⟩, ⟨1⟩⟩]⟩
    let m' : TileMap := ⟨1, 2, 16, 16, #[some ⟨⟨0, 2⟩, ⟨1⟩⟩, some ⟨⟨0, 1⟩, ⟨2⟩⟩]⟩
    let old : Point := ⟨.ofInt 8, .ofInt 10⟩
    let new : Point := ⟨.ofInt 8, .ofInt 31⟩
    let found : Contact := ⟨none, some (.ofInt 28), ⟨some ⟨0, 1⟩, ⟨0, 1⟩, 16, 16⟩⟩
    Relabelled ρ ledge turned ∧ ledge.link ⟨1⟩ = .ok r ∧ turned.link ⟨2⟩ = .ok r' ∧
      r.categoryNamed? "feet" = some feet ∧
      r'.categoryNamed? (ρ.category "feet") = some feet' ∧
      TileMap.make 1 2 16 16 tiles r = .ok m ∧ TileMap.make 1 2 16 16 tiles r' = .ok m' ∧
      (Resolver.mk r .axisChange).resolve feet old new m.toGrid = found ∧
      (Resolver.mk r' .axisChange).resolve feet' old new m'.toGrid = found := by
  intro ρ turned r r' feet feet' tiles m m' old new found
  have hturned : Relabelled ρ ledge turned := by
    constructor
    · decide +kernel
    · decide +kernel
    · decide +kernel
  have hlink : turned.link ⟨2⟩ = .ok r' := by
    refine link_eq_ok_iff.mpr ⟨?_, rfl⟩
    decide +kernel
  have hfeet : r.categoryNamed? "feet" = some feet := by decide +kernel
  have hfeet' : r'.categoryNamed? (ρ.category "feet") = some feet' := by decide +kernel
  have hmake : TileMap.make 1 2 16 16 tiles r = .ok m := by decide +kernel
  have hmake' : TileMap.make 1 2 16 16 tiles r' = .ok m' := by decide +kernel
  have hfound : (Resolver.mk r .axisChange).resolve feet old new m.toGrid = found := by
    decide +kernel
  have hrel := (link_relabelled hturned ⟨1⟩ ⟨2⟩).2 (link_ledge ⟨1⟩) hlink "feet"
  obtain ⟨c', hc', hsame⟩ := exists_of_rel_some hrel hfeet
  obtain rfl : c' = feet' := Option.some.inj (hc'.symm.trans hfeet')
  exact ⟨hturned, link_ledge ⟨1⟩, hlink, hfeet, hfeet', hmake, hmake', hfound,
    (hsame.resolve_eq hmake hmake' .axisChange old new).symm.trans hfound⟩

end Draft.Relabelled
end Terrain
