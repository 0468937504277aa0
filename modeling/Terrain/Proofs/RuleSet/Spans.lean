import Mathlib.Logic.Relation
import Terrain.Proofs.RuleSet.Closed
import Terrain.Proofs.RuleSet.ReadBack

/-! ## Spans

A picture belongs to a group when one of the spans of the group covers it. Which spans these are
does not matter: a list of spans may be reordered, a picture may be written as a run of one, and a
run may be cut in two, and every picture stays in the same groups. -/

namespace Terrain

/-! ### What is covered -/

/-- The picture lies on the sheet of the span and is the one it names, or not outside the ends of
    the run. -/
def TileSpan.Covers : TileSpan → TileId → Prop
  | .single sheet index, tile => tile.sheet = sheet ∧ tile.index = index
  | .run sheet first last, tile => tile.sheet = sheet ∧ first ≤ tile.index ∧ tile.index ≤ last

/-- One of the spans covers the picture. -/
def GroupDraft.Covers (g : GroupDraft) (tile : TileId) : Prop := ∃ span ∈ g.tiles, span.Covers tile

theorem TileSpan.contains_iff {span : TileSpan} {tile : TileId} :
    span.contains tile = true ↔ span.Covers tile := by
  cases span with
  | single sheet index => simp only [contains, Covers, Bool.and_eq_true, beq_iff_eq]
  | run sheet first last =>
    simp only [contains, Covers, Bool.and_eq_true, beq_iff_eq, decide_eq_true_eq, and_assoc]

theorem GroupDraft.containsTile_linked {g : GroupDraft} {formulas : List String} {tile : TileId} :
    (g.linked formulas).containsTile tile = true ↔ g.Covers tile := by
  simp only [Group.containsTile, linked, List.any_eq_true, TileSpan.contains_iff, Covers]

/-- The picture written as a run of one. -/
theorem TileSpan.covers_run_self {sheet index : UInt32} {tile : TileId} :
    (run sheet index index).Covers tile ↔ (single sheet index).Covers tile := by
  refine and_congr_right fun _ => ?_
  rw [← UInt32.toNat_inj, UInt32.le_iff_toNat_le, UInt32.le_iff_toNat_le]
  omega

/-- A word below another one has a next word. -/
theorem toNat_next {middle last : UInt32} (h : middle < last) :
    (middle + 1).toNat = middle.toNat + 1 := by
  have hlt := UInt32.lt_iff_toNat_lt.mp h
  have hlast := last.toNat_lt
  rw [UInt32.toNat_add, UInt32.toNat_one, Nat.mod_eq_of_lt (by omega)]

/-- The parts of a run meet: the second begins right after the last picture of the first. -/
theorem TileSpan.covers_run_split {sheet first middle last : UInt32} (hfirst : first ≤ middle)
    (hlast : middle < last) {tile : TileId} :
    (run sheet first last).Covers tile ↔
      (run sheet first middle).Covers tile ∨ (run sheet (middle + 1) last).Covers tile := by
  have hnext := toNat_next hlast
  rw [UInt32.le_iff_toNat_le] at hfirst
  rw [UInt32.lt_iff_toNat_lt] at hlast
  simp only [Covers, ← and_or_left, UInt32.le_iff_toNat_le, hnext]
  refine and_congr_right fun _ => ?_
  omega

/-! ### Writing spans in another way -/

/-- One change to a list of spans. The run that is cut has a picture on either side of the cut. -/
inductive SpanStep : List TileSpan → List TileSpan → Prop
  | relist {spans spans' : List TileSpan} (h : ∀ span, span ∈ spans' ↔ span ∈ spans) :
      SpanStep spans spans'
  | widen (front back : List TileSpan) (sheet index : UInt32) :
      SpanStep (front ++ [.single sheet index] ++ back) (front ++ [.run sheet index index] ++ back)
  | split (front back : List TileSpan) {sheet first middle last : UInt32} (hfirst : first ≤ middle)
      (hlast : middle < last) :
      SpanStep (front ++ [.run sheet first last] ++ back)
        (front ++ [.run sheet first middle, .run sheet (middle + 1) last] ++ back)

/-- Both lists are in order or neither is, and they cover the same pictures. -/
structure SameSpans (spans spans' : List TileSpan) : Prop where
  ordered_iff : (∀ span ∈ spans', span.Ordered) ↔ ∀ span ∈ spans, span.Ordered
  covers_iff : ∀ tile, (∃ span ∈ spans', span.Covers tile) ↔ ∃ span ∈ spans, span.Covers tile

theorem SameSpans.amid {spans spans' : List TileSpan} (h : SameSpans spans spans')
    (front back : List TileSpan) : SameSpans (front ++ spans ++ back) (front ++ spans' ++ back) where
  ordered_iff := by simp only [List.forall_mem_append, h.ordered_iff]
  covers_iff := by
    intro tile
    simp only [List.mem_append, or_and_right, exists_or, h.covers_iff]

theorem SpanStep.sameSpans {spans spans' : List TileSpan} (h : SpanStep spans spans') :
    SameSpans spans spans' := by
  cases h with
  | relist h => exact ⟨by simp only [h], by simp only [h, implies_true]⟩
  | widen front back sheet index =>
    refine SameSpans.amid ⟨?_, fun tile => ?_⟩ front back
    · simp [TileSpan.Ordered]
    · simp [TileSpan.covers_run_self]
  | @split front back sheet first middle last hfirst hlast =>
    refine SameSpans.amid ⟨?_, fun tile => ?_⟩ front back
    · -- The run was in order before it was cut, and its parts are in order.
      have hwhole := UInt32.le_trans hfirst (UInt32.le_of_lt hlast)
      have hrest : middle + 1 ≤ last := by
        rw [UInt32.le_iff_toNat_le, toNat_next hlast]
        exact UInt32.lt_iff_toNat_lt.mp hlast
      simp [TileSpan.Ordered, hfirst, hrest, hwhole]
    · simp [TileSpan.covers_run_split hfirst hlast]

/-- Any number of changes, in either direction. -/
theorem sameSpans_of_eqvGen {spans spans' : List TileSpan}
    (h : Relation.EqvGen SpanStep spans spans') : SameSpans spans spans' := by
  induction h with
  | rel _ _ h => exact h.sameSpans
  | refl _ => exact ⟨Iff.rfl, fun _ => Iff.rfl⟩
  | symm _ _ _ ih => exact ⟨ih.ordered_iff.symm, fun tile => (ih.covers_iff tile).symm⟩
  | trans _ _ _ _ _ ih ih' =>
    exact ⟨ih'.ordered_iff.trans ih.ordered_iff,
      fun tile => (ih'.covers_iff tile).trans (ih.covers_iff tile)⟩

/-! ### Groups and drafts -/

/-- The other group has the same name and the same formulas, and its list of spans comes from
    changes to the list of this one. -/
structure GroupDraft.Respanned (g g' : GroupDraft) : Prop where
  name_eq : g'.name = g.name
  formulas_eq : g'.formulas = g.formulas
  tiles : Relation.EqvGen SpanStep g.tiles g'.tiles

/-- The other draft differs at most in the spans of its groups. -/
structure Draft.Respanned (d d' : Draft) : Prop where
  formulas_eq : d'.formulas = d.formulas
  groups : List.Forall₂ GroupDraft.Respanned d.groups d'.groups
  categories_eq : d'.categories = d.categories

theorem GroupDraft.Respanned.wellFormed {g g' : GroupDraft} (h : g.Respanned g')
    {formulas : List String} (hg : g.WellFormed formulas) : g'.WellFormed formulas where
  tiles := (sameSpans_of_eqvGen h.tiles).ordered_iff.mpr hg.tiles
  formulas := h.formulas_eq ▸ hg.formulas

theorem GroupDraft.Respanned.covers_iff {g g' : GroupDraft} (h : g.Respanned g') {tile : TileId} :
    g'.Covers tile ↔ g.Covers tile :=
  (sameSpans_of_eqvGen h.tiles).covers_iff tile

namespace Draft

variable {d d' : Draft} {id : RuleSetId}

theorem Respanned.wellFormed (h : d.Respanned d') (hd : d.WellFormed) : d'.WellFormed := by
  have hgroupNames : d'.groupNames = d.groupNames :=
    (map_eq_of_forall₂ (fun hab => hab.name_eq.symm) h.groups).symm
  have hformulaNames : d'.formulaNames = d.formulaNames := by
    rw [formulaNames, h.formulas_eq, formulaNames]
  have hcategoryNames : d'.categoryNames = d.categoryNames := by
    rw [categoryNames, h.categories_eq, categoryNames]
  refine hd.of_names_eq hgroupNames hformulaNames hcategoryNames ?_ ?_ ?_
  · rw [h.formulas_eq]
    exact hd.formulas
  · exact forall_mem_of_forall₂ (fun _ _ hab ha => hab.wellFormed ha) h.groups hd.groups
  · rw [h.categories_eq]
    exact hd.categories

theorem WellFormed.contains_groupsForTile_iff (hd : d.WellFormed) {tile : TileId} {g : GroupId} :
    ((d.linked id).groupsForTile tile).contains g = true ↔
      ∃ group, d.groups[g.index]? = some group ∧ group.Covers tile := by
  rw [RuleSet.contains_groupsForTile_iff]
  simp only [RuleSet.group?, linked, linkedGroups, List.getElem?_map, Option.map_eq_some_iff]
  constructor
  · rintro ⟨⟨_, ⟨group, hgroup, rfl⟩, hcontains⟩, _⟩
    exact ⟨group, hgroup, GroupDraft.containsTile_linked.mp hcontains⟩
  · rintro ⟨group, hgroup, hcovers⟩
    -- There are no more groups than a set can hold.
    have hlt := (List.getElem?_eq_some_iff.mp hgroup).1
    exact ⟨⟨_, ⟨group, hgroup, rfl⟩, GroupDraft.containsTile_linked.mpr hcovers⟩,
      Nat.lt_of_lt_of_le hlt hd.groups_le⟩

theorem Respanned.groupsForTile_eq (h : d.Respanned d') (hd : d.WellFormed) (id' : RuleSetId)
    (tile : TileId) : (d'.linked id').groupsForTile tile = (d.linked id).groupsForTile tile := by
  refine GroupSet.ext_contains fun g => Bool.eq_iff_iff.mpr ?_
  rw [hd.contains_groupsForTile_iff, (h.wellFormed hd).contains_groupsForTile_iff]
  have hrel := getElem?_of_forall₂ h.groups g.index
  revert hrel
  generalize d.groups[g.index]? = group, d'.groups[g.index]? = group'
  intro hrel
  cases hrel with
  | none => exact Iff.rfl
  | some hgroup => simp only [Option.some.injEq, exists_eq_left', hgroup.covers_iff]

/-- In an accepted draft a picture belongs to the groups whose spans cover it. A draft that writes
    the spans in another way is accepted too, and its pictures belong to the same groups. -/
theorem groupsForTile_of_link {r : RuleSet} (h : d.link id = .ok r) :
    (∀ tile g, (r.groupsForTile tile).contains g = true ↔
      ∃ group, d.groups[g.index]? = some group ∧ group.Covers tile) ∧
      ∀ d' id', d.Respanned d' → ∃ r', d'.link id' = .ok r' ∧
        ∀ tile, r'.groupsForTile tile = r.groupsForTile tile := by
  obtain ⟨hd, rfl⟩ := link_eq_ok_iff.mp h
  refine ⟨fun tile g => hd.contains_groupsForTile_iff, fun d' id' hd' => ?_⟩
  exact ⟨d'.linked id', link_eq_ok_iff.mpr ⟨hd'.wellFormed hd, rfl⟩, hd'.groupsForTile_eq hd id'⟩

/-- A run up to the last picture of a sheet is cut before it, and what is left is written as a run of
    one and repeated. -/
theorem groupsForTile_of_link_ledge :
    let block : GroupDraft := ⟨"block", [.single 0 2, .run 1 4294967290 4294967295], []⟩
    let cut : GroupDraft := ⟨"block", [.run 1 4294967290 4294967294, .run 0 2 2,
      .run 1 4294967295 4294967295, .run 0 2 2], []⟩
    let d : Draft := { ledge with groups := [⟨"top", [.single 0 1], ["floor", "low"]⟩, block] }
    let d' : Draft := { ledge with groups := [⟨"top", [.single 0 1], ["floor", "low"]⟩, cut] }
    let r := d.linked ⟨1⟩
    d.link ⟨1⟩ = .ok r ∧ d.Respanned d' ∧
      (∀ tile g, (r.groupsForTile tile).contains g = true ↔
        ∃ group, d.groups[g.index]? = some group ∧ group.Covers tile) ∧
      ∃ r', d'.link ⟨2⟩ = .ok r' ∧ ∀ tile, r'.groupsForTile tile = r.groupsForTile tile := by
  intro block cut d d' r
  have hlink : d.link ⟨1⟩ = .ok r := by
    refine link_eq_ok_iff.mpr ⟨?_, rfl⟩
    decide +kernel
  have hwiden : SpanStep [.single 0 2, .run 1 4294967290 4294967295]
      [.run 0 2 2, .run 1 4294967290 4294967295] := .widen [] [_] 0 2
  have hsplit : SpanStep [.run 0 2 2, .run 1 4294967290 4294967295]
      [.run 0 2 2, .run 1 4294967290 4294967294, .run 1 4294967295 4294967295] :=
    .split [_] [] (by decide) (by decide)
  have hrelist : SpanStep
      [.run 0 2 2, .run 1 4294967290 4294967294, .run 1 4294967295 4294967295] cut.tiles := by
    refine .relist fun span => ?_
    simp only [cut, List.mem_cons, List.not_mem_nil, or_false]
    tauto
  have hrespanned : d.Respanned d' := by
    refine ⟨rfl, .cons ⟨rfl, rfl, .refl _⟩ (.cons ⟨rfl, rfl, ?_⟩ .nil), rfl⟩
    exact .trans _ _ _ (.rel _ _ hwiden) (.trans _ _ _ (.rel _ _ hsplit) (.rel _ _ hrelist))
  obtain ⟨hcovered, hrespan⟩ := groupsForTile_of_link hlink
  exact ⟨hlink, hrespanned, hcovered, hrespan d' ⟨2⟩ hrespanned⟩

end Draft
end Terrain
