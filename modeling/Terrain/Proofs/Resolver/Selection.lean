import Terrain.Grid.Field
import Terrain.Proofs.RuleSet.Gathering

/-! ## The formula that a tile selects

A probe scans the formulas of one group after the other, with all their repetitions. A category
also holds the list of its formulas without repetition. What a probe selects is in that list, and in
a tile that belongs to all groups of the category it is what the list alone would give. -/

namespace Terrain

namespace RuleSet

theorem formulasOf_eq_filterMap (r : RuleSet) (g : GroupId) :
    r.formulasOf g = (r.formulaIdsOf g).filterMap r.formula? := by
  unfold formulasOf formulaIdsOf
  cases r.group? g with
  | none => rfl
  | some group => rfl

/-- Whether the formula at a place answers at a pixel. -/
def firesAt (r : RuleSet) (k : FormulaId) (axis : Axis) (p : Pixel)
    (around : Orientation → GroupSet) : Bool :=
  (r.formula? k).any (·.fires axis p around)

theorem firesAt_iff {r : RuleSet} {k : FormulaId} {axis : Axis} {p : Pixel}
    {around : Orientation → GroupSet} :
    r.firesAt k axis p around = true ↔
      ∃ f, r.formula? k = some f ∧ f.fires axis p around = true :=
  Option.any_eq_true _ _

end RuleSet

namespace Resolver

variable {r : Resolver} {c : Category} {grid : Grid} {tile : Tile}

/-! ### Places tried -/

/-- The places of the formulas that concern a category in a tile of the given groups, group by group
    and with repetitions. -/
def candidateIds (r : Resolver) (c : Category) (groups : GroupSet) : List FormulaId :=
  (c.groups.filter groups.contains).flatMap r.rules.formulaIdsOf

/-- The place of the formula that a tile selects for a category at a pixel. -/
def selected? (r : Resolver) (c : Category) (tile : Tile) (p : Pixel) (grid : Grid) :
    Option FormulaId :=
  let own := grid.membership tile
  if own.intersects c.mask then
    search r.rules.formula? grid c.axis p (.around tile own) (r.candidateIds c own)
  else none

theorem candidates_eq_filterMap (r : Resolver) (c : Category) (groups : GroupSet) :
    r.candidates c groups = (r.candidateIds c groups).filterMap r.rules.formula? := by
  rw [candidates, candidateIds, List.filterMap_flatMap]
  exact congrArg (List.flatMap · _) (funext r.rules.formulasOf_eq_filterMap)

/-- A probe answers with the formula that the tile selects at the pixel under the point. -/
theorem probe_eq_selected? (r : Resolver) (c : Category) (tile : Tile) (point : Point)
    (grid : Grid) :
    r.probe c tile point grid =
      ((r.selected? c tile (tile.pixelAt point) grid).bind r.rules.formula?).map
        fun f => .hit c.axis tile (f.valueAt (tile.pixelAt point)) := by
  unfold probe selected?
  dsimp only
  split
  · rw [candidates_eq_filterMap, scan_filterMap, Option.map_map]
    rfl
  · rfl

/-- Of the places tried, the first whose formula fires is selected. -/
theorem selected?_eq_find? (hmask : ∀ g ∈ c.groups, c.mask.contains g = true) (p : Pixel) :
    r.selected? c tile p grid =
      (r.candidateIds c (grid.membership tile)).find?
        (r.rules.firesAt · c.axis p (grid.around tile)) := by
  unfold selected?
  dsimp only
  split
  · exact search_eq_find? _ _ _ (Neighborhood.around_consistent grid tile _) _
  · rename_i hdisjoint
    rw [candidateIds, filter_groups_eq_nil hmask hdisjoint]
    rfl

theorem mem_formulas_of_selected? {d : Draft} {id : RuleSetId} {lookback : Lookback}
    (h : d.WellFormed) (hc : c ∈ (d.linked id).categories) {p : Pixel} {k : FormulaId}
    (hk : (mk (d.linked id) lookback).selected? c tile p grid = some k) :
    k ∈ c.formulas ∧ (d.linked id).firesAt k c.axis p (grid.around tile) = true := by
  rw [selected?_eq_find? ((h.linked_closed id).categories c hc).mem_mask] at hk
  have hfires := List.find?_some hk
  obtain ⟨g, hg, hkg⟩ := List.mem_flatMap.mp (List.mem_of_find?_eq_some hk)
  refine ⟨?_, hfires⟩
  rw [Draft.formulas_linked hc]
  exact List.mem_eraseDups.mpr (List.mem_flatMap.mpr ⟨g, (List.mem_filter.mp hg).1, hkg⟩)

/-! ### The list of the category -/

/-- Where all groups of a category are present, the list of its formulas answers for it. -/
theorem selected?_of_full {d : Draft} {id : RuleSetId} {lookback : Lookback} (h : d.WellFormed)
    (hc : c ∈ (d.linked id).categories)
    (hfull : ∀ g ∈ c.groups, (grid.membership tile).contains g = true) (p : Pixel) :
    (mk (d.linked id) lookback).selected? c tile p grid =
      c.formulas.find? ((d.linked id).firesAt · c.axis p (grid.around tile)) := by
  rw [selected?_eq_find? ((h.linked_closed id).categories c hc).mem_mask, candidateIds,
    List.filter_eq_self.mpr hfull, Draft.formulas_linked hc, find?_eraseDups]

/-- A probe answers with the formula that the tile selects. That formula is one of the category's
    and fires; and in a tile that belongs to all groups of the category, the first one of the
    category's list that fires is selected, and none exactly if none of them fires. -/
theorem selected?_by_list {d : Draft} {id : RuleSetId} {rules : RuleSet}
    (hlink : d.link id = .ok rules) (lookback : Lookback) {c : Category} (hc : c ∈ rules.categories)
    (tile : Tile) (grid : Grid) :
    (∀ point, Option.Rel
      (fun k found => ∃ f, rules.formula? k = some f ∧
        found = .hit c.axis tile (f.valueAt (tile.pixelAt point)))
      ((mk rules lookback).selected? c tile (tile.pixelAt point) grid)
      ((mk rules lookback).probe c tile point grid)) ∧
    (∀ p k, (mk rules lookback).selected? c tile p grid = some k →
      k ∈ c.formulas ∧
        ∃ f, rules.formula? k = some f ∧ f.fires c.axis p (grid.around tile) = true) ∧
    ((∀ g ∈ c.groups, (grid.membership tile).contains g = true) → ∀ p,
      (mk rules lookback).selected? c tile p grid =
        c.formulas.find? (rules.firesAt · c.axis p (grid.around tile)) ∧
      ((mk rules lookback).selected? c tile p grid = none ↔
        ∀ k ∈ c.formulas, ∀ f, rules.formula? k = some f →
          f.fires c.axis p (grid.around tile) = false)) := by
  obtain ⟨hd, rfl⟩ := Draft.link_eq_ok_iff.mp hlink
  refine ⟨?_, ?_, ?_⟩
  · intro point
    rw [probe_eq_selected?]
    cases hk : (mk (d.linked id) lookback).selected? c tile (tile.pixelAt point) grid with
    | none => exact .none
    | some k =>
      obtain ⟨f, hf, _⟩ := RuleSet.firesAt_iff.mp (mem_formulas_of_selected? hd hc hk).2
      simp only [Option.bind_some, hf, Option.map_some]
      exact .some ⟨f, hf, rfl⟩
  · intro p k hk
    obtain ⟨hmem, hfires⟩ := mem_formulas_of_selected? hd hc hk
    exact ⟨hmem, RuleSet.firesAt_iff.mp hfires⟩
  · intro hfull p
    have hfind : (mk (d.linked id) lookback).selected? c tile p grid =
        c.formulas.find? ((d.linked id).firesAt · c.axis p (grid.around tile)) :=
      selected?_of_full hd hc hfull p
    refine ⟨hfind, ?_⟩
    simp only [hfind, List.find?_eq_none, RuleSet.firesAt_iff, not_exists, not_and,
      Bool.not_eq_true]

/-- On the mossy ledge a block above switches the floor off, which the moss lists twice and the
    ledge once more, so the slope is selected. -/
theorem selected?_by_list_mossyLedge :
    let rules := Draft.mossyLedge.linked ⟨1⟩
    let feet : Category := ⟨"feet", .y, 0, 8, [⟨2⟩, ⟨0⟩], ⟨5⟩, [⟨0⟩, ⟨1⟩], ⟨1⟩⟩
    let grid := (Field.mk 16 16 16 16 none
      [(⟨2, 2⟩, some ⟨0, 2⟩), (⟨2, 3⟩, some ⟨0, 1⟩)] rules).toGrid
    let tile : Tile := ⟨some ⟨0, 1⟩, ⟨2, 3⟩, 16, 16⟩
    Draft.mossyLedge.link ⟨1⟩ = .ok rules ∧ feet ∈ rules.categories ∧
      (mk rules .never).selected? feet tile ⟨8, 15⟩ grid = some ⟨1⟩ ∧
      (⟨1⟩ ∈ feet.formulas ∧
        ∃ f, rules.formula? ⟨1⟩ = some f ∧ f.fires .y ⟨8, 15⟩ (grid.around tile) = true) ∧
      (∀ g ∈ feet.groups, (grid.membership tile).contains g = true) ∧
      (mk rules .never).selected? feet tile ⟨8, 15⟩ grid =
        feet.formulas.find? (rules.firesAt · .y ⟨8, 15⟩ (grid.around tile)) := by
  intro rules feet grid tile
  have hlink : Draft.mossyLedge.link ⟨1⟩ = .ok rules := Draft.link_mossyLedge ⟨1⟩
  have hfeet : feet ∈ rules.categories := by decide +kernel
  have hselected : (mk rules .never).selected? feet tile ⟨8, 15⟩ grid = some ⟨1⟩ := by
    decide +kernel
  have hfull : ∀ g ∈ feet.groups, (grid.membership tile).contains g = true := by decide +kernel
  obtain ⟨_, hmem, hlist⟩ := selected?_by_list hlink .never hfeet tile grid
  exact ⟨hlink, hfeet, hselected, hmem _ _ hselected, hfull, (hlist hfull _).1⟩

end Resolver
end Terrain
