import Mathlib.Data.List.Basic
import Mathlib.Data.List.Find
import Terrain.Proofs.RuleSet.Naming

/-! ## Added rules

A draft may grow: further definitions come after the old ones, which stay as they are. The new
groups may cover pictures that old ones cover, and the new entries may refer to old ones, but no old
entry can refer to a new one. So the old categories find on every map what they found before. -/

namespace Terrain

/-- The other draft has the definitions of the first one, in their order, and others after them. -/
structure Draft.ExtendedBy (d d' : Draft) : Prop where
  formulas : d.formulas <+: d'.formulas
  groups : d.groups <+: d'.groups
  categories : d.categories <+: d'.categories

/-- What is defined is found before anything that is added later. -/
theorem find?_of_prefix {α : Type} {key : α → String} {l l' : List α} (h : l <+: l') {name : String}
    (hname : name ∈ l.map key) : l'.find? (key · == name) = l.find? (key · == name) := by
  obtain ⟨added, rfl⟩ := h
  obtain ⟨a, ha, rfl⟩ := List.mem_map.mp hname
  rw [List.find?_append]
  cases hfind : l.find? (key · == key a) with
  | some b => rfl
  | none => exact absurd (beq_self_eq_true (key a)) (List.find?_eq_none.mp hfind a ha)

namespace Draft.ExtendedBy

variable {d d' : Draft}

section

variable (h : d.ExtendedBy d') (hd : d.WellFormed)

include h

theorem formulaNamed? {name : String} (hname : name ∈ d.formulaNames) :
    d'.formulaNamed? name = d.formulaNamed? name :=
  find?_of_prefix h.formulas hname

theorem groupNamed? {name : String} (hname : name ∈ d.groupNames) :
    d'.groupNamed? name = d.groupNamed? name :=
  find?_of_prefix h.groups hname

theorem categoryNamed? {name : String} (hname : name ∈ d.categoryNames) :
    d'.categoryNamed? name = d.categoryNamed? name :=
  find?_of_prefix h.categories hname

theorem covers {name : String} (hname : name ∈ d.groupNames) (picture : TileId) :
    d.covers name picture = d'.covers name picture := by
  unfold Draft.covers
  rw [h.groupNamed? hname]

include hd

theorem formulasOf {name : String} (hname : name ∈ d.groupNames) :
    d'.formulasOf name = d.formulasOf name := by
  unfold Draft.formulasOf
  rw [h.groupNamed? hname]
  cases hg : d.groupNamed? name with
  | none => rfl
  | some g =>
    have hformulas := (hd.groups g (List.mem_of_find?_eq_some hg)).formulas
    exact List.filterMap_congr fun formula hformula => h.formulaNamed? (hformulas formula hformula)

variable {c : CategoryDraft} (hc : c ∈ d.categories) {own own' : String → Bool}
  {around around' : Orientation → String → Bool}

include hc

theorem candidates (hown : ∀ name ∈ d.groupNames, own name = own' name) :
    d'.candidates c own' = d.candidates c own := by
  have hgroups : ∀ name ∈ c.groups.eraseDups, name ∈ d.groupNames := fun name hname =>
    hd.categories c hc name (List.mem_eraseDups.mp hname)
  have hfilter : c.groups.eraseDups.filter own' = c.groups.eraseDups.filter own :=
    List.filter_congr fun name hname => (hown name (hgroups name hname)).symm
  unfold Draft.candidates
  rw [hfilter]
  exact List.flatMap_congr fun name hname =>
    h.formulasOf hd (hgroups name (List.mem_filter.mp hname).1)

/-- An old category answers as before, whatever added groups stand anywhere. -/
theorem answer (hown : ∀ name ∈ d.groupNames, own name = own' name)
    (haround : ∀ o, ∀ name ∈ d.groupNames, around o name = around' o name) (p : Pixel) :
    d.answer c own around p = d'.answer c own' around' p := by
  unfold Draft.answer
  rw [h.candidates hd hc hown]
  refine congrArg _ (List.find?_congr fun f hf => ?_)
  have hblocked := (hd.formulas f (mem_formulas_of_mem_candidates hf)).blocked
  exact FormulaDraft.fires_congr (fun o name hname => haround o name (hblocked o name hname)) _ p

theorem sameOnMaps (hd' : d'.WellFormed) (id id' : RuleSetId) :
    (c.linked d.linkedGroups id).SameOnMaps (c.linked d'.linkedGroups id') (d.linked id)
      (d'.linked id') := by
  have hc' : c ∈ d'.categories := h.categories.subset hc
  refine sameOnMaps_of_answer hd hd' hc hc' rfl rfl rfl (fun name => name) ?_ ?_ id id'
  · intro name hname picture
    exact h.covers hname picture
  · intro own own' around around' hown haround p
    exact h.answer hd hc hown haround p

end

/-- When rules are added to a draft and both drafts are accepted, each category of the first draft
    finds on all maps what it found there before. -/
theorem link_extended (h : d.ExtendedBy d') {id id' : RuleSetId} {r r' : RuleSet}
    (hr : d.link id = .ok r) (hr' : d'.link id' = .ok r') {name : String}
    (hname : name ∈ d.categoryNames) :
    ∃ c c', r.categoryNamed? name = some c ∧ r'.categoryNamed? name = some c' ∧
      c.SameOnMaps c' r r' := by
  obtain ⟨hd, rfl⟩ := link_eq_ok_iff.mp hr
  obtain ⟨hd', rfl⟩ := link_eq_ok_iff.mp hr'
  obtain ⟨c, hc, rfl⟩ := List.mem_map.mp hname
  obtain ⟨found, hfound⟩ : ∃ found, d.categoryNamed? c.name = some found :=
    Option.isSome_iff_exists.mp (List.find?_isSome.mpr ⟨c, hc, beq_self_eq_true c.name⟩)
  refine ⟨found.linked d.linkedGroups id, found.linked d'.linkedGroups id', ?_, ?_,
    h.sameOnMaps hd (List.mem_of_find?_eq_some hfound) hd' id id'⟩
  · rw [categoryNamed?_linked, hfound]
    rfl
  · rw [categoryNamed?_linked, h.categoryNamed? hname, hfound]
    rfl

/-- The ledge with a wall that moss shows. The moss covers the ledge and its blocks too and lists
    the old floor, and moss on the left switches the wall off. On a ledge under a block, feet that
    fall are stopped by the slope, with the moss as without it. -/
theorem link_extended_ledge :
    let mossy : Draft := {
      formulas := Draft.ledge.formulas ++
        [(FormulaDraft.new "wall" ⟨.x, 0, 0, 0, 15⟩ ⟨.ofInt 0, .ofInt 0⟩).blockedBy .left "moss"]
      groups := Draft.ledge.groups ++ [⟨"moss", [.run 0 0 9], ["wall", "floor"]⟩]
      categories := Draft.ledge.categories ++ [⟨"hand", .x, 8, 0, ["moss", "top"]⟩] }
    let r := ledge.linked ⟨1⟩
    let r' := mossy.linked ⟨2⟩
    let feet : Category := ⟨"feet", .y, 0, 0, [⟨0⟩], ⟨1⟩, [⟨0⟩, ⟨1⟩], ⟨1⟩⟩
    let feet' : Category := ⟨"feet", .y, 0, 0, [⟨0⟩], ⟨1⟩, [⟨0⟩, ⟨1⟩], ⟨2⟩⟩
    let tiles : Array (Option TileId) := #[some ⟨0, 2⟩, some ⟨0, 1⟩]
    let m : TileMap := ⟨1, 2, 16, 16, #[some ⟨⟨0, 2⟩, ⟨2⟩⟩, some ⟨⟨0, 1⟩, ⟨1⟩⟩]⟩
    let m' : TileMap := ⟨1, 2, 16, 16, #[some ⟨⟨0, 2⟩, ⟨6⟩⟩, some ⟨⟨0, 1⟩, ⟨5⟩⟩]⟩
    let old : Point := ⟨.ofInt 8, .ofInt 10⟩
    let new : Point := ⟨.ofInt 8, .ofInt 31⟩
    let found : Contact := ⟨none, some (.ofInt 28), ⟨some ⟨0, 1⟩, ⟨0, 1⟩, 16, 16⟩⟩
    ledge.ExtendedBy mossy ∧ ledge.link ⟨1⟩ = .ok r ∧ mossy.link ⟨2⟩ = .ok r' ∧
      "feet" ∈ ledge.categoryNames ∧
      r.categoryNamed? "feet" = some feet ∧ r'.categoryNamed? "feet" = some feet' ∧
      TileMap.make 1 2 16 16 tiles r = .ok m ∧ TileMap.make 1 2 16 16 tiles r' = .ok m' ∧
      (Resolver.mk r .axisChange).resolve feet old new m.toGrid = found ∧
      (Resolver.mk r' .axisChange).resolve feet' old new m'.toGrid = found := by
  intro mossy r r' feet feet' tiles m m' old new found
  have hextended : ledge.ExtendedBy mossy :=
    ⟨List.prefix_append _ _, List.prefix_append _ _, List.prefix_append _ _⟩
  have hlink : mossy.link ⟨2⟩ = .ok r' := by
    refine link_eq_ok_iff.mpr ⟨?_, rfl⟩
    decide +kernel
  have hname : "feet" ∈ ledge.categoryNames := by decide
  have hfeet : r.categoryNamed? "feet" = some feet := by decide +kernel
  have hfeet' : r'.categoryNamed? "feet" = some feet' := by decide +kernel
  have hmake : TileMap.make 1 2 16 16 tiles r = .ok m := by decide +kernel
  have hmake' : TileMap.make 1 2 16 16 tiles r' = .ok m' := by decide +kernel
  have hfound : (Resolver.mk r .axisChange).resolve feet old new m.toGrid = found := by
    decide +kernel
  obtain ⟨c, c', hc, hc', hsame⟩ := link_extended hextended (link_ledge ⟨1⟩) hlink hname
  obtain rfl : c = feet := Option.some.inj (hc.symm.trans hfeet)
  obtain rfl : c' = feet' := Option.some.inj (hc'.symm.trans hfeet')
  exact ⟨hextended, link_ledge ⟨1⟩, hlink, hname, hfeet, hfeet', hmake, hmake', hfound,
    (hsame.resolve_eq hmake hmake' .axisChange old new).symm.trans hfound⟩

end Draft.ExtendedBy
end Terrain
