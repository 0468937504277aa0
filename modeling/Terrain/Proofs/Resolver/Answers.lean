import Terrain.Grid.Field
import Terrain.Proofs.Resolver.FirstMatch
import Terrain.Proofs.RuleSet.Closed

/-! ## What the resolver answers

The answer of the resolver as a relation, without a search, a memory or a shortcut: which positions
of a category are eligible in a tile, which of them comes first, and which contact follows from
that in the new cell and in the old one. -/

namespace Terrain

/-! ### Neighbours -/

theorem Cell.neighbor?_eq_some_iff {c n : Cell} {o : Orientation} :
    c.neighbor? o = some n ↔
      n.x.toInt = c.x.toInt + o.offset.1 ∧ n.y.toInt = c.y.toInt + o.offset.2 := by
  unfold neighbor?
  refine Option.bind_eq_some_iff.trans ?_
  constructor
  · intro ⟨x, hx, h⟩
    obtain ⟨y, hy, h⟩ := Option.bind_eq_some_iff.mp h
    cases h
    exact ⟨int32?_eq_some_iff.mp hx, int32?_eq_some_iff.mp hy⟩
  · intro ⟨hx, hy⟩
    refine ⟨n.x, int32?_eq_some_iff.mpr hx, ?_⟩
    exact Option.bind_eq_some_iff.mpr ⟨n.y, int32?_eq_some_iff.mpr hy, rfl⟩

/-- A group stands in a direction from a tile: in the tile itself when it is one of its groups, and
    elsewhere when it is one of those of the tile at the address that the direction leads to. -/
inductive Grid.Stands (grid : Grid) (tile : Tile) (g : GroupId) : Orientation → Prop
  | own (hg : (grid.membership tile).contains g = true) : grid.Stands tile g .center
  | beside {o : Orientation} {cell : Cell} {neighbor : Tile} (ho : o ≠ .center)
      (hx : cell.x.toInt = tile.cell.x.toInt + o.offset.1)
      (hy : cell.y.toInt = tile.cell.y.toInt + o.offset.2)
      (htile : grid.tileAt cell = some neighbor)
      (hg : (grid.membership neighbor).contains g = true) : grid.Stands tile g o

theorem Grid.contains_groupsAt_iff {grid : Grid} {cell : Cell} {g : GroupId} :
    (grid.groupsAt cell).contains g = true ↔
      ∃ tile, grid.tileAt cell = some tile ∧ (grid.membership tile).contains g = true := by
  unfold groupsAt
  cases grid.tileAt cell with
  | none => simp
  | some tile => simp

theorem Grid.contains_around_iff {grid : Grid} {tile : Tile} {o : Orientation} {g : GroupId} :
    (grid.around tile o).contains g = true ↔ grid.Stands tile g o := by
  unfold around Neighborhood.fresh
  by_cases ho : o = .center
  · subst ho
    rw [if_pos rfl]
    constructor
    · exact .own
    · rintro (hg | ⟨ho, _⟩)
      · exact hg
      · exact absurd rfl ho
  · rw [if_neg ho, Neighborhood.lookup]
    constructor
    · intro h
      cases hn : tile.cell.neighbor? o with
      | none => simp [hn] at h
      | some cell =>
        simp only [hn, Option.map_some, Option.getD_some] at h
        obtain ⟨neighbor, htile, hg⟩ := contains_groupsAt_iff.mp h
        obtain ⟨hx, hy⟩ := Cell.neighbor?_eq_some_iff.mp hn
        exact .beside ho hx hy htile hg
    · rintro (_ | ⟨_, hx, hy, htile, hg⟩)
      · exact absurd rfl ho
      · rw [Cell.neighbor?_eq_some_iff.mpr ⟨hx, hy⟩]
        exact contains_groupsAt_iff.mpr ⟨_, htile, hg⟩

/-! ### Positions -/

/-- At place `i` a category lists the group `g`, and at place `j` that group lists the formula
    `f`. -/
def RuleSet.Lists (r : RuleSet) (c : Category) (i j : Nat) (g : GroupId) (f : Formula) : Prop :=
  c.groups[i]? = some g ∧
    ∃ group k, r.group? g = some group ∧ group.formulas[j]? = some k ∧ r.formula? k = some f

/-- The formula at a position of a category may answer in a tile at a pixel: the tile belongs to
    the group, the formula writes the axis of the category, covers the pixel and has a finite
    value, and no group that blocks it in a direction stands there. -/
structure RuleSet.Eligible (r : RuleSet) (c : Category) (grid : Grid) (tile : Tile) (p : Pixel)
    (i j : Nat) (f : Formula) : Prop where
  listed : ∃ g, r.Lists c i j g f ∧ (grid.membership tile).contains g = true
  axis : f.zone.axis = c.axis
  covers : f.zone.contains p = true
  finite : (f.valueAt p).isFinite = true
  free : ∀ o g, (f.constraint.blockers.get o).contains g = true → ¬grid.Stands tile g o

/-- The first eligible position: of any other, the group comes later, or it is the same and the
    formula comes later. -/
structure RuleSet.First (r : RuleSet) (c : Category) (grid : Grid) (tile : Tile) (p : Pixel)
    (i j : Nat) (f : Formula) : Prop where
  eligible : r.Eligible c grid tile p i j f
  least : ∀ {i' j' f'}, r.Eligible c grid tile p i' j' f' → i < i' ∨ i = i' ∧ j ≤ j'

variable {r : RuleSet} {c : Category} {grid : Grid} {tile : Tile} {p : Pixel}

theorem RuleSet.Lists.unique {i j : Nat} {g g' : GroupId} {f f' : Formula}
    (h : r.Lists c i j g f) (h' : r.Lists c i j g' f') : f = f' := by
  obtain ⟨hg, group, k, hgroup, hk, hf⟩ := h
  obtain ⟨hg', group', k', hgroup', hk', hf'⟩ := h'
  cases hg.symm.trans hg'
  cases hgroup.symm.trans hgroup'
  cases hk.symm.trans hk'
  exact Option.some.inj (hf.symm.trans hf')

/-- There is one first position at most. -/
theorem RuleSet.First.unique {i j i' j' : Nat} {f f' : Formula} (h : r.First c grid tile p i j f)
    (h' : r.First c grid tile p i' j' f') : f = f' := by
  have hij : i = i' ∧ j = j' := by
    have := h.least h'.eligible
    have := h'.least h.eligible
    omega
  obtain ⟨rfl, rfl⟩ := hij
  obtain ⟨g, hg, _⟩ := h.eligible.listed
  obtain ⟨g', hg', _⟩ := h'.eligible.listed
  exact hg.unique hg'

/-! ### The search finds the first position -/

theorem findSome?_first {α β : Type} {f : α → Option β} {l : List α} {b : β}
    (h : l.findSome? f = some b) :
    ∃ i a, l[i]? = some a ∧ f a = some b ∧
      ∀ {i' : Nat} {a'}, l[i']? = some a' → f a' ≠ none → i ≤ i' := by
  obtain ⟨l₁, a, l₂, rfl, ha, hnone⟩ := List.findSome?_eq_some_iff.mp h
  refine ⟨l₁.length, a, by simp, ha, ?_⟩
  intro i' a' hi' hsome
  apply Nat.le_of_not_lt
  intro hlt
  rw [List.getElem?_append_left hlt] at hi'
  exact hsome (hnone a' (List.mem_of_getElem? hi'))

namespace RuleSet

theorem mem_formulasOf_iff {g : GroupId} {f : Formula} :
    f ∈ r.formulasOf g ↔
      ∃ group k, r.group? g = some group ∧ k ∈ group.formulas ∧ r.formula? k = some f := by
  unfold formulasOf
  cases r.group? g with
  | none => simp
  | some group => simp

theorem find?_formulasOf_first {g : GroupId} {q : Formula → Bool} {f : Formula}
    (h : (r.formulasOf g).find? q = some f) :
    ∃ group j k, r.group? g = some group ∧ group.formulas[j]? = some k ∧ r.formula? k = some f ∧
      ∀ {j' : Nat} {k' f'}, group.formulas[j']? = some k' → r.formula? k' = some f' →
        q f' = true → j ≤ j' := by
  unfold formulasOf at h
  cases hgroup : r.group? g with
  | none => simp [hgroup] at h
  | some group =>
    simp only [hgroup, List.find?_filterMap] at h
    obtain ⟨k, hk, hf⟩ := Option.bind_eq_some_iff.mp h
    obtain ⟨_, j, hj, rfl, hleast⟩ := List.find?_eq_some_iff_getElem.mp hk
    refine ⟨group, j, _, rfl, List.getElem?_eq_getElem hj, hf, ?_⟩
    intro j' k' f' hk' hf' hq
    apply Nat.le_of_not_lt
    intro hlt
    have hfails := hleast j' hlt
    rw [List.getElem?_eq_getElem (Nat.lt_trans hlt hj)] at hk'
    cases hk'
    simp [hf', hq] at hfails

end RuleSet

namespace Resolver

variable {r : Resolver} {own : GroupSet} {q : Formula → Bool} {f : Formula}

theorem mem_candidates_iff :
    f ∈ r.candidates c own ↔ ∃ i j g, r.rules.Lists c i j g f ∧ own.contains g = true := by
  unfold candidates
  rw [List.mem_flatMap]
  constructor
  · intro ⟨g, hg, hf⟩
    obtain ⟨hg, hown⟩ := List.mem_filter.mp hg
    obtain ⟨group, k, hgroup, hk, hf⟩ := RuleSet.mem_formulasOf_iff.mp hf
    obtain ⟨i, hi⟩ := List.mem_iff_getElem?.mp hg
    obtain ⟨j, hj⟩ := List.mem_iff_getElem?.mp hk
    exact ⟨i, j, g, ⟨hi, group, k, hgroup, hj, hf⟩, hown⟩
  · intro ⟨i, j, g, ⟨hi, group, k, hgroup, hj, hf⟩, hown⟩
    refine ⟨g, List.mem_filter.mpr ⟨List.mem_of_getElem? hi, hown⟩, ?_⟩
    exact RuleSet.mem_formulasOf_iff.mpr ⟨group, k, hgroup, List.mem_of_getElem? hj, hf⟩

theorem find?_candidates (r : Resolver) (c : Category) (own : GroupSet) (q : Formula → Bool) :
    (r.candidates c own).find? q =
      c.groups.findSome? fun g =>
        if own.contains g then (r.rules.formulasOf g).find? q else none := by
  rw [candidates, List.find?_flatMap]
  induction c.groups with
  | nil => rfl
  | cons g gs ih =>
    rw [List.filter_cons, List.findSome?_cons]
    split
    · rw [List.findSome?_cons, ih]
    · exact ih

/-- Of all candidates that pass, the search takes the one at the least position. -/
theorem find?_candidates_first (h : (r.candidates c own).find? q = some f) :
    ∃ i j g, r.rules.Lists c i j g f ∧ own.contains g = true ∧
      ∀ {i' j' g' f'}, r.rules.Lists c i' j' g' f' → own.contains g' = true → q f' = true →
        i < i' ∨ i = i' ∧ j ≤ j' := by
  rw [find?_candidates] at h
  obtain ⟨i, g, hi, hfind, hleast⟩ := findSome?_first h
  split at hfind
  · rename_i hown
    obtain ⟨group, j, k, hgroup, hj, hf, hleast'⟩ := RuleSet.find?_formulasOf_first hfind
    refine ⟨i, j, g, ⟨hi, group, k, hgroup, hj, hf⟩, hown, ?_⟩
    intro i' j' g' f' ⟨hi', group', k', hgroup', hj', hf'⟩ hown' hq
    -- Its group has a formula that passes, so the group comes no earlier.
    have hi_le : i ≤ i' := by
      apply hleast hi'
      rw [if_pos hown']
      intro hnone
      have hmem : f' ∈ r.rules.formulasOf g' :=
        RuleSet.mem_formulasOf_iff.mpr ⟨group', k', hgroup', List.mem_of_getElem? hj', hf'⟩
      exact List.find?_eq_none.mp hnone f' hmem hq
    rcases Nat.lt_or_eq_of_le hi_le with hlt | rfl
    · exact .inl hlt
    · cases hi.symm.trans hi'
      cases hgroup.symm.trans hgroup'
      exact .inr ⟨rfl, hleast' hj' hf' hq⟩
  · cases hfind

theorem fires_iff_eligible {i j : Nat} {g : GroupId} (hlists : r.rules.Lists c i j g f)
    (hown : (grid.membership tile).contains g = true) :
    f.fires c.axis p (grid.around tile) = true ↔ r.rules.Eligible c grid tile p i j f := by
  have hfree : f.constraint.blockedAmid (grid.around tile) = false ↔
      ∀ o g, (f.constraint.blockers.get o).contains g = true → ¬grid.Stands tile g o := by
    simp only [← Bool.not_eq_true, Constraint.blockedAmid_iff, Grid.contains_around_iff,
      not_exists, not_and]
  rw [Formula.fires_iff, hfree]
  constructor
  · intro ⟨haxis, hcovers, hfree, hfinite⟩
    exact ⟨⟨g, hlists, hown⟩, haxis, hcovers, hfinite, hfree⟩
  · intro h
    exact ⟨h.axis, h.covers, h.free, h.finite⟩

/-- What one tile answers: the value of its first eligible position, or nothing if none is
    eligible. -/
theorem probe_cases (r : Resolver) (tile : Tile)
    (hmask : ∀ g ∈ c.groups, c.mask.contains g = true) (point : Point) :
    (∃ i j f, r.rules.First c grid tile (tile.pixelAt point) i j f ∧
      r.probe c tile point grid = some (.hit c.axis tile (f.valueAt (tile.pixelAt point)))) ∨
    (∀ i j f, ¬r.rules.Eligible c grid tile (tile.pixelAt point) i j f) ∧
      r.probe c tile point grid = none := by
  rw [probe_eq_find? r hmask]
  cases hfind : (r.candidates c (grid.membership tile)).find?
      (·.fires c.axis (tile.pixelAt point) (grid.around tile)) with
  | none =>
    refine .inr ⟨?_, rfl⟩
    intro i j f h
    -- An eligible formula is a candidate that fires, and the search has found none.
    obtain ⟨g, hlists, hown⟩ := h.listed
    have hmem : f ∈ r.candidates c (grid.membership tile) :=
      mem_candidates_iff.mpr ⟨i, j, g, hlists, hown⟩
    exact List.find?_eq_none.mp hfind f hmem ((fires_iff_eligible hlists hown).mpr h)
  | some f =>
    obtain ⟨i, j, g, hlists, hown, hleast⟩ := find?_candidates_first hfind
    have hfires := List.find?_some hfind
    refine .inl ⟨i, j, f, ⟨(fires_iff_eligible hlists hown).mp hfires, ?_⟩, rfl⟩
    intro i' j' f' h
    obtain ⟨g', hlists', hown'⟩ := h.listed
    exact hleast hlists' hown' ((fires_iff_eligible hlists' hown').mpr h)

theorem probe_of_first {i j : Nat} (hmask : ∀ g ∈ c.groups, c.mask.contains g = true)
    {point : Point} (h : r.rules.First c grid tile (tile.pixelAt point) i j f) :
    r.probe c tile point grid = some (.hit c.axis tile (f.valueAt (tile.pixelAt point))) := by
  obtain ⟨i', j', f', hfirst, hprobe⟩ | ⟨hnone, _⟩ := probe_cases r tile hmask point
  · rw [hprobe, h.unique hfirst]
  · exact absurd h.eligible (hnone i j f)

theorem probe_of_none (hmask : ∀ g ∈ c.groups, c.mask.contains g = true) {point : Point}
    (h : ∀ i j f, ¬r.rules.Eligible c grid tile (tile.pixelAt point) i j f) :
    r.probe c tile point grid = none := by
  obtain ⟨i, j, f, hfirst, _⟩ | ⟨_, hprobe⟩ := probe_cases r tile hmask point
  · exact absurd hfirst.eligible (h i j f)
  · exact hprobe

end Resolver

/-! ### The relation -/

/-- When a policy asks for a look back. -/
def Lookback.Asks (l : Lookback) (axis : Axis) (old new : Cell) : Prop :=
  match l with
  | .never => False
  | .axisChange => old.on axis ≠ new.on axis
  | .anyChange => old ≠ new

theorem Lookback.applies_iff {l : Lookback} {axis : Axis} {old new : Cell} :
    l.applies axis old new = true ↔ l.Asks axis old new := by
  cases l with
  | never => exact ⟨fun h => absurd h Bool.false_ne_true, False.elim⟩
  | axisChange => exact bne_iff_ne
  | anyChange => exact bne_iff_ne

/-- A tile stops a test point on one axis, at a value counted from the corner of the tile, and
    leaves the other axis alone. -/
inductive Contact.Blocked (tile : Tile) (value : Binary64) : Axis → Contact → Prop
  | x : Contact.Blocked tile value .x ⟨some (tile.origin.x + value), none, tile⟩
  | y : Contact.Blocked tile value .y ⟨none, some (tile.origin.y + value), tile⟩

namespace Contact

theorem blocked_hit (axis : Axis) (tile : Tile) (value : Binary64) :
    Blocked tile value axis (.hit axis tile value) := by
  cases axis with
  | x => exact .x
  | y => exact .y

theorem Blocked.eq_hit {axis : Axis} {tile : Tile} {value : Binary64} {found : Contact}
    (h : Blocked tile value axis found) : found = .hit axis tile value := by
  cases h with
  | x => rfl
  | y => rfl

end Contact

namespace Resolver

/-- Coming from `old` into a cell, the policy asks for a look back, and there is a tile. -/
def LooksBack (r : Resolver) (c : Category) (grid : Grid) (old : Point) (cell : Cell)
    (previous : Tile) : Prop :=
  ∃ oldCell, Cell.containing? old grid.tileWidth grid.tileHeight = some oldCell ∧
    r.lookback.Asks c.axis oldCell cell ∧ grid.tileAt oldCell = some previous

/-- The answers of a resolver, for a test point that has moved from `old` to `new`. -/
inductive Answers (r : Resolver) (c : Category) (grid : Grid) (old new : Point) : Contact → Prop
  /-- The new position has no cell. -/
  | unaddressable (hcell : Cell.containing? new grid.tileWidth grid.tileHeight = none) :
      Answers r c grid old new ⟨none, none, .vacant ⟨0, 0⟩ grid.tileWidth grid.tileHeight⟩
  /-- The new cell has no tile. -/
  | hole {cell : Cell} (hcell : Cell.containing? new grid.tileWidth grid.tileHeight = some cell)
      (htile : grid.tileAt cell = none) :
      Answers r c grid old new ⟨none, none, .vacant cell grid.tileWidth grid.tileHeight⟩
  /-- A position is eligible in the new tile. -/
  | hit {cell : Cell} {tile : Tile} {i j : Nat} {f : Formula} {found : Contact}
      (hcell : Cell.containing? new grid.tileWidth grid.tileHeight = some cell)
      (htile : grid.tileAt cell = some tile)
      (hfirst : r.rules.First c grid tile (tile.pixelAt new) i j f)
      (hfound : Contact.Blocked tile (f.valueAt (tile.pixelAt new)) c.axis found) :
      Answers r c grid old new found
  /-- None is eligible there, and one is in the tile looked back into, at the pixel of that tile
      nearest to the new position. -/
  | hitBack {cell : Cell} {tile previous : Tile} {i j : Nat} {f : Formula} {found : Contact}
      (hcell : Cell.containing? new grid.tileWidth grid.tileHeight = some cell)
      (htile : grid.tileAt cell = some tile)
      (hnone : ∀ i j f, ¬r.rules.Eligible c grid tile (tile.pixelAt new) i j f)
      (hback : r.LooksBack c grid old cell previous)
      (hfirst : r.rules.First c grid previous (previous.pixelAt new) i j f)
      (hfound : Contact.Blocked previous (f.valueAt (previous.pixelAt new)) c.axis found) :
      Answers r c grid old new found
  /-- None is eligible in either tile. -/
  | missBack {cell : Cell} {tile previous : Tile}
      (hcell : Cell.containing? new grid.tileWidth grid.tileHeight = some cell)
      (htile : grid.tileAt cell = some tile)
      (hnone : ∀ i j f, ¬r.rules.Eligible c grid tile (tile.pixelAt new) i j f)
      (hback : r.LooksBack c grid old cell previous)
      (hnone' : ∀ i j f, ¬r.rules.Eligible c grid previous (previous.pixelAt new) i j f) :
      Answers r c grid old new ⟨none, none, previous⟩
  /-- None is eligible in the new tile, and there is no look back. -/
  | miss {cell : Cell} {tile : Tile}
      (hcell : Cell.containing? new grid.tileWidth grid.tileHeight = some cell)
      (htile : grid.tileAt cell = some tile)
      (hnone : ∀ i j f, ¬r.rules.Eligible c grid tile (tile.pixelAt new) i j f)
      (hback : ∀ previous, ¬r.LooksBack c grid old cell previous) :
      Answers r c grid old new ⟨none, none, tile⟩

variable {r : Resolver} {old new : Point}

theorem previousTile?_eq_some_iff_looksBack {cell : Cell} {previous : Tile} :
    r.previousTile? c old cell grid = some previous ↔ r.LooksBack c grid old cell previous := by
  simp only [previousTile?_eq_some_iff, Lookback.applies_iff]
  rfl

theorem answers_resolveAt (hmask : ∀ g ∈ c.groups, c.mask.contains g = true) :
    r.Answers c grid old new (r.resolveAt c old new grid) := by
  unfold resolveAt
  cases hcell : Cell.containing? new grid.tileWidth grid.tileHeight with
  | none => exact .unaddressable hcell
  | some cell =>
    dsimp only
    cases htile : grid.tileAt cell with
    | none => exact .hole hcell htile
    | some tile =>
      dsimp only
      obtain ⟨i, j, f, hfirst, hprobe⟩ | ⟨hnone, hprobe⟩ := probe_cases r tile hmask new
      · rw [hprobe]
        exact .hit hcell htile hfirst (Contact.blocked_hit ..)
      · rw [hprobe]
        dsimp only
        cases hback : r.previousTile? c old cell grid with
        | none =>
          refine .miss hcell htile hnone ?_
          intro previous hprevious
          rw [previousTile?_eq_some_iff_looksBack.mpr hprevious] at hback
          cases hback
        | some previous =>
          have hback := previousTile?_eq_some_iff_looksBack.mp hback
          dsimp only
          obtain ⟨i, j, f, hfirst, hprobe⟩ | ⟨hnone', hprobe⟩ :=
            probe_cases r previous hmask new
          · rw [hprobe]
            exact .hitBack hcell htile hnone hback hfirst (Contact.blocked_hit ..)
          · rw [hprobe]
            exact .missBack hcell htile hnone hback hnone'

theorem Answers.resolveAt_eq (hmask : ∀ g ∈ c.groups, c.mask.contains g = true) {found : Contact}
    (h : r.Answers c grid old new found) : r.resolveAt c old new grid = found := by
  unfold resolveAt
  cases h with
  | unaddressable hcell => rw [hcell]; rfl
  | hole hcell htile => simp only [hcell, htile]; rfl
  | hit hcell htile hfirst hfound =>
    simp only [hcell, htile, probe_of_first hmask hfirst, hfound.eq_hit]
  | hitBack hcell htile hnone hback hfirst hfound =>
    simp only [hcell, htile, probe_of_none hmask hnone,
      previousTile?_eq_some_iff_looksBack.mpr hback, probe_of_first hmask hfirst, Option.getD_some,
      hfound.eq_hit]
  | missBack hcell htile hnone hback hnone' =>
    simp only [hcell, htile, probe_of_none hmask hnone,
      previousTile?_eq_some_iff_looksBack.mpr hback, probe_of_none hmask hnone', Option.getD_none]
    rfl
  | @miss cell tile hcell htile hnone hback =>
    have hprevious : r.previousTile? c old cell grid = none := by
      refine Option.eq_none_iff_forall_ne_some.mpr fun previous h => ?_
      exact hback previous (previousTile?_eq_some_iff_looksBack.mp h)
    simp only [hcell, htile, probe_of_none hmask hnone, hprevious]
    rfl

/-- The contact of a category with the rules that it was linked with: what the relation allows for
    the two positions of its test point, and nothing else. -/
theorem resolve_eq_iff_answers {d : Draft} {id : RuleSetId} {rules : RuleSet}
    (hlink : d.link id = .ok rules) (lookback : Lookback) {c : Category} (hc : c ∈ rules.categories)
    {grid : Grid} (hwidth : grid.tileWidth ≠ 0) (hheight : grid.tileHeight ≠ 0) (old new : Point)
    (found : Contact) :
    (Resolver.mk rules lookback).resolve c old new grid = found ↔
      (Resolver.mk rules lookback).Answers c grid (old + c.offset) (new + c.offset) found := by
  have hclosed := Draft.link_closed hlink
  have hmask := (hclosed.categories c hc).mem_mask
  -- Nothing is refused: the cells have a size, and the category is one of the rules.
  have hresolve : (Resolver.mk rules lookback).resolve c old new grid =
      (Resolver.mk rules lookback).resolveAt c (old + c.offset) (new + c.offset) grid := by
    unfold resolve
    rw [if_neg]
    rintro (h | h | h)
    · exact hwidth h
    · exact hheight h
    · exact h (hclosed.rules_eq c hc)
  rw [hresolve]
  constructor
  · intro h
    subst h
    exact answers_resolveAt hmask
  · exact Answers.resolveAt_eq hmask

/-- The feet fall from the ledge into a block below it. The block has no formula for the feet; a
    block above the ledge switches the floor off, so the slope answers. Beside a bank, a hand in
    front of the body runs into the wall: the bank lists a formula for the feet before it. -/
theorem answers_below_ledge_and_beside_bank :
    let banked : Draft := {
      formulas := Draft.ledge.formulas ++
        [FormulaDraft.new "wall" ⟨.x, 0, 9, 0, 15⟩ ⟨.ofInt 1, .ofInt 4⟩]
      groups := Draft.ledge.groups ++ [⟨"bank", [.single 0 3], ["low", "wall"]⟩]
      categories := Draft.ledge.categories ++ [⟨"hand", .x, 5, -3, ["top", "bank"]⟩] }
    let rules := Draft.ledge.linked ⟨1⟩
    let rules' := banked.linked ⟨2⟩
    let feet : Category := ⟨"feet", .y, 0, 0, [⟨0⟩], ⟨1⟩, [⟨0⟩, ⟨1⟩], ⟨1⟩⟩
    let hand : Category := ⟨"hand", .x, 5, -3, [⟨0⟩, ⟨2⟩], ⟨5⟩, [⟨0⟩, ⟨1⟩, ⟨2⟩], ⟨2⟩⟩
    let field : Field := ⟨16, 16, 16, 16, none,
      [(⟨2, 2⟩, some ⟨0, 2⟩), (⟨2, 3⟩, some ⟨0, 1⟩), (⟨2, 4⟩, some ⟨0, 2⟩)], rules⟩
    let field' : Field := ⟨16, 16, 16, 16, none, [(⟨2, 2⟩, some ⟨0, 3⟩)], rules'⟩
    (Draft.ledge.link ⟨1⟩ = .ok rules ∧ feet ∈ rules.categories ∧
      field.toGrid.tileWidth ≠ 0 ∧ field.toGrid.tileHeight ≠ 0 ∧
      (Resolver.mk rules .axisChange).Answers feet field.toGrid
        (⟨.ofInt 40, .ofInt 60⟩ + feet.offset) (⟨.ofInt 40, .ofInt 70⟩ + feet.offset)
        ⟨none, some (.ofInt 60), ⟨some ⟨0, 1⟩, ⟨2, 3⟩, 16, 16⟩⟩) ∧
      banked.link ⟨2⟩ = .ok rules' ∧ hand ∈ rules'.categories ∧
      field'.toGrid.tileWidth ≠ 0 ∧ field'.toGrid.tileHeight ≠ 0 ∧
      (Resolver.mk rules' .never).Answers hand field'.toGrid
        (⟨.ofInt 20, .ofInt 30⟩ + hand.offset) (⟨.ofInt 30, .ofInt 40⟩ + hand.offset)
        ⟨some (.ofInt 41), none, ⟨some ⟨0, 3⟩, ⟨2, 2⟩, 16, 16⟩⟩ := by
  intro banked rules rules' feet hand field field'
  have hlink : Draft.ledge.link ⟨1⟩ = .ok rules := Draft.link_ledge ⟨1⟩
  have hfeet : feet ∈ rules.categories := by decide +kernel
  have hwidth : field.toGrid.tileWidth ≠ 0 := by decide +kernel
  have hheight : field.toGrid.tileHeight ≠ 0 := by decide +kernel
  have hlink' : banked.link ⟨2⟩ = .ok rules' := by
    refine Draft.link_eq_ok_iff.mpr ⟨?_, rfl⟩
    decide +kernel
  have hhand : hand ∈ rules'.categories := by decide +kernel
  have hwidth' : field'.toGrid.tileWidth ≠ 0 := by decide +kernel
  have hheight' : field'.toGrid.tileHeight ≠ 0 := by decide +kernel
  refine ⟨⟨hlink, hfeet, hwidth, hheight, ?_⟩, hlink', hhand, hwidth', hheight', ?_⟩
  · apply (resolve_eq_iff_answers hlink .axisChange hfeet hwidth hheight _ _ _).mp
    decide +kernel
  · apply (resolve_eq_iff_answers hlink' .never hhand hwidth' hheight' _ _ _).mp
    decide +kernel

end Resolver
end Terrain
