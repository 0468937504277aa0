import Terrain.Proofs.Resolver.Surroundings
import Terrain.Resolver.Basic

/-! ## The first match

The search for a formula without its shortcuts: of the candidates of a tile, in their order, the
first that fires. Two resolutions answer alike as soon as their searches do in every tile. -/

namespace Terrain

/-- Whether a formula answers at a pixel: it writes the axis, covers the pixel, is not switched off
    by what is around, and its value is a number. -/
def Formula.fires (f : Formula) (axis : Axis) (p : Pixel) (around : Orientation → GroupSet) :
    Bool :=
  decide (f.zone.axis = axis) && f.appliesAt p && !f.constraint.blockedAmid around &&
    (f.valueAt p).isFinite

theorem Formula.fires_iff {f : Formula} {axis : Axis} {p : Pixel}
    {around : Orientation → GroupSet} :
    f.fires axis p around = true ↔
      f.zone.axis = axis ∧ f.appliesAt p = true ∧ f.constraint.blockedAmid around = false ∧
        (f.valueAt p).isFinite = true := by
  unfold fires
  simp only [Bool.and_eq_true, decide_eq_true_eq, Bool.not_eq_true', and_assoc]

theorem Formula.fires_of_covers {f : Formula} {axis : Axis} {p : Pixel}
    (h : f.zone.axis = axis ∧ f.appliesAt p = true) (around : Orientation → GroupSet) :
    f.fires axis p around =
      (!f.constraint.blockedAmid around && (f.valueAt p).isFinite) := by
  rw [fires, decide_eq_true h.1, h.2, Bool.and_true, Bool.true_and]

theorem Formula.fires_of_not_covers {f : Formula} {axis : Axis} {p : Pixel}
    (h : ¬(f.zone.axis = axis ∧ f.appliesAt p = true)) (around : Orientation → GroupSet) :
    f.fires axis p around = false := by
  refine Bool.eq_false_iff.mpr fun hfires => h ?_
  obtain ⟨haxis, happlies, _⟩ := fires_iff.mp hfires
  exact ⟨haxis, happlies⟩

/-- The groups around a tile as the grid gives them. -/
def Grid.around (grid : Grid) (tile : Tile) : Orientation → GroupSet :=
  Neighborhood.fresh grid tile.cell (grid.membership tile)

namespace Resolver

/-! ### The search -/

section

variable {α : Type}

/-- The search of `scan` through entries that stand for formulas, which tells the entry that it stops
    at. Entries that stand for none are passed over. -/
def search (formulaOf : α → Option Formula) (grid : Grid) (axis : Axis) (p : Pixel) :
    Neighborhood → List α → Option α
  | _, [] => none
  | n, a :: rest =>
    match formulaOf a with
    | none => search formulaOf grid axis p n rest
    | some f =>
      if f.zone.axis = axis ∧ f.appliesAt p then
        let (suppressed, n) := n.suppresses grid f
        if !suppressed && (f.valueAt p).isFinite then some a
        else search formulaOf grid axis p n rest
      else search formulaOf grid axis p n rest

/-- A scan gives the value of the formula that the search stops at. -/
theorem scan_filterMap (formulaOf : α → Option Formula) (grid : Grid) (axis : Axis) (p : Pixel)
    (n : Neighborhood) (l : List α) :
    scan grid axis p n (l.filterMap formulaOf) =
      ((search formulaOf grid axis p n l).bind formulaOf).map (·.valueAt p) := by
  induction l generalizing n with
  | nil => rfl
  | cons a l ih =>
    rw [search, List.filterMap_cons]
    cases hf : formulaOf a with
    | none => exact ih n
    | some f =>
      dsimp only
      rw [scan]
      split
      · dsimp only
        split
        · rw [Option.bind_some, hf]
          rfl
        · exact ih _
      · exact ih n

/-- Nothing that the search asks of the neighbourhood has a part in what it stops at. -/
theorem search_eq_find? {grid : Grid} {own : GroupSet} (formulaOf : α → Option Formula)
    (axis : Axis) (p : Pixel) {n : Neighborhood} (h : n.Consistent grid own) (l : List α) :
    search formulaOf grid axis p n l =
      l.find? fun a => (formulaOf a).any (·.fires axis p (Neighborhood.fresh grid n.center own)) := by
  induction l generalizing n with
  | nil => rfl
  | cons a l ih =>
    rw [search, List.find?_cons]
    cases hf : formulaOf a with
    | none => exact ih h
    | some f =>
      dsimp only [Option.any_some]
      split
      · rename_i hcovers
        have ha := Neighborhood.suppresses_answered f h
        rw [Formula.fires_of_covers hcovers, ← ha.answer]
        split
        · rename_i hfires
          rw [hfires]
        · rename_i hfires
          -- The rest is tried with what this question has left behind.
          rw [Bool.eq_false_iff.mpr hfires, ih ha.consistent, ha.grows.center_eq]
      · rename_i hcovers
        -- A formula elsewhere is passed over without a question.
        rw [Formula.fires_of_not_covers hcovers]
        exact ih h

end

theorem scan_eq_find? {grid : Grid} {own : GroupSet} (axis : Axis) (p : Pixel) {n : Neighborhood}
    (h : n.Consistent grid own) (fs : List Formula) :
    scan grid axis p n fs =
      (fs.find? (·.fires axis p (Neighborhood.fresh grid n.center own))).map (·.valueAt p) := by
  have hscan := scan_filterMap some grid axis p n fs
  rw [List.filterMap_some, search_eq_find? some axis p h] at hscan
  simpa only [Option.bind_fun_some, Option.any_some] using hscan

/-- What the set of groups of a category refuses, its list would not find. -/
theorem filter_groups_eq_nil {c : Category} {own : GroupSet}
    (hmask : ∀ g ∈ c.groups, c.mask.contains g = true) (hdisjoint : ¬own.intersects c.mask = true) :
    c.groups.filter own.contains = [] := by
  refine List.filter_eq_nil_iff.mpr fun g hg hown => hdisjoint ?_
  exact GroupSet.intersects_iff.mpr ⟨g, hown, hmask g hg⟩

theorem candidates_eq_nil {r : Resolver} {c : Category} {own : GroupSet}
    (hmask : ∀ g ∈ c.groups, c.mask.contains g = true) (hdisjoint : ¬own.intersects c.mask = true) :
    r.candidates c own = [] := by
  rw [candidates, filter_groups_eq_nil hmask hdisjoint]
  rfl

/-- One tile answers with the first of its candidates that fires. -/
theorem probe_eq_find? (r : Resolver) {c : Category}
    (hmask : ∀ g ∈ c.groups, c.mask.contains g = true) (tile : Tile) (p : Point) (grid : Grid) :
    r.probe c tile p grid =
      ((r.candidates c (grid.membership tile)).find?
        (·.fires c.axis (tile.pixelAt p) (grid.around tile))).map
          fun f => .hit c.axis tile (f.valueAt (tile.pixelAt p)) := by
  unfold probe
  dsimp only
  split
  · rw [scan_eq_find? _ _ (Neighborhood.around_consistent grid tile _), Option.map_map]
    rfl
  · rename_i hdisjoint
    rw [candidates_eq_nil hmask hdisjoint]
    rfl

/-! ### The whole answer -/

theorem previousTile?_eq_some_iff {r : Resolver} {c : Category} {old : Point} {cell : Cell}
    {grid : Grid} {previous : Tile} :
    r.previousTile? c old cell grid = some previous ↔
      ∃ oldCell, Cell.containing? old grid.tileWidth grid.tileHeight = some oldCell ∧
        r.lookback.applies c.axis oldCell cell = true ∧ grid.tileAt oldCell = some previous := by
  unfold previousTile?
  refine Option.bind_eq_some_iff.trans ?_
  constructor
  · intro ⟨oldCell, hold, h⟩
    split at h
    · rename_i happlies
      exact ⟨oldCell, hold, happlies, h⟩
    · cases h
  · intro ⟨oldCell, hold, happlies, h⟩
    exact ⟨oldCell, hold, (if_pos happlies).trans h⟩

/-- The cells that a move is looked up in: that of the new position and that of the old one. -/
def Visits (c : Category) (grid : Grid) (old new : Point) (cell : Cell) : Prop :=
  Cell.containing? (new + c.offset) grid.tileWidth grid.tileHeight = some cell ∨
    Cell.containing? (old + c.offset) grid.tileWidth grid.tileHeight = some cell

/-- Two resolutions of a move answer alike when their categories test the same point, their policies
    are alike, and the visited cells hold the same tiles, which answer alike. -/
theorem resolve_congr_of_visits {r s : Resolver} {c d : Category} {grid grid' : Grid}
    {old new : Point} (hlookback : r.lookback = s.lookback) (haxis : c.axis = d.axis)
    (hx : c.offsetX = d.offsetX) (hy : c.offsetY = d.offsetY)
    (hrefused : c.rules = r.rules.id ↔ d.rules = s.rules.id)
    (hwidth : grid.tileWidth = grid'.tileWidth) (hheight : grid.tileHeight = grid'.tileHeight)
    (htile : ∀ cell, Visits c grid old new cell → grid.tileAt cell = grid'.tileAt cell)
    (hprobe : ∀ cell tile, Visits c grid old new cell → grid.tileAt cell = some tile →
      r.probe c tile (new + c.offset) grid = s.probe d tile (new + c.offset) grid') :
    r.resolve c old new grid = s.resolve d old new grid' := by
  have hoffset : d.offset = c.offset := by
    unfold Category.offset
    rw [hx, hy]
  have hprevious : ∀ cell, r.previousTile? c (old + c.offset) cell grid =
      s.previousTile? d (old + c.offset) cell grid' := by
    intro cell
    unfold previousTile?
    rw [← hwidth, ← hheight, ← hlookback, ← haxis]
    cases hold : Cell.containing? (old + c.offset) grid.tileWidth grid.tileHeight with
    | none => rfl
    | some oldCell =>
      simp only [Option.bind_eq_bind, Option.bind_some, htile oldCell (.inr hold)]
  have hat : r.resolveAt c (old + c.offset) (new + c.offset) grid =
      s.resolveAt d (old + c.offset) (new + c.offset) grid' := by
    unfold resolveAt
    rw [← hwidth, ← hheight]
    cases hnew : Cell.containing? (new + c.offset) grid.tileWidth grid.tileHeight with
    | none => rfl
    | some cell =>
      dsimp only
      rw [← htile cell (.inl hnew)]
      cases ht : grid.tileAt cell with
      | none => rfl
      | some tile =>
        dsimp only
        rw [hprobe cell tile (.inl hnew) ht]
        cases s.probe d tile (new + c.offset) grid' with
        | some found => rfl
        | none =>
          dsimp only
          cases hp : r.previousTile? c (old + c.offset) cell grid with
          | none =>
            rw [hprevious cell] at hp
            rw [hp]
          | some previous =>
            -- This tile comes from the old cell, so it is one that answers alike.
            obtain ⟨oldCell, hold, _, htile'⟩ := previousTile?_eq_some_iff.mp hp
            rw [hprevious cell] at hp
            rw [hp]
            dsimp only
            rw [hprobe oldCell previous (.inr hold) htile']
  unfold resolve
  rw [← hwidth, ← hheight, hoffset, hat]
  simp only [ne_eq, hrefused]

/-- Two resolutions answer alike when their categories test the same point, their policies and
    grids are alike, and every tile answers alike. -/
theorem resolve_congr {r s : Resolver} {c d : Category} {grid grid' : Grid}
    (hlookback : r.lookback = s.lookback) (haxis : c.axis = d.axis)
    (hx : c.offsetX = d.offsetX) (hy : c.offsetY = d.offsetY)
    (hrefused : c.rules = r.rules.id ↔ d.rules = s.rules.id)
    (hwidth : grid.tileWidth = grid'.tileWidth) (hheight : grid.tileHeight = grid'.tileHeight)
    (htile : ∀ cell, grid.tileAt cell = grid'.tileAt cell)
    (hprobe : ∀ cell tile p, grid.tileAt cell = some tile →
      r.probe c tile p grid = s.probe d tile p grid')
    (old new : Point) : r.resolve c old new grid = s.resolve d old new grid' :=
  resolve_congr_of_visits hlookback haxis hx hy hrefused hwidth hheight
    (fun cell _ => htile cell) (fun cell tile _ => hprobe cell tile _)

end Resolver
end Terrain
