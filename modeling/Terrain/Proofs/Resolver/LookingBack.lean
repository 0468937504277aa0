import Terrain.Grid.Field
import Terrain.Proofs.Resolver.FirstMatch
import Terrain.Proofs.RuleSet.Linking

/-! ## Looking back

What the policy and the old position of a move can change. Both are read only to find the tile to
look back into, and only after a miss in the new cell. So two resolutions of one new position answer
alike when they find the same tile there, or when they never get so far. -/

namespace Terrain

/-! ### Strength -/

namespace Lookback

/-- The place of a policy in the order of strength. -/
def strength : Lookback → Nat
  | .never => 0
  | .axisChange => 1
  | .anyChange => 2

instance : LE Lookback := ⟨fun l k => l.strength ≤ k.strength⟩

instance (l k : Lookback) : Decidable (l ≤ k) :=
  inferInstanceAs (Decidable (l.strength ≤ k.strength))

/-- The stronger policy looks back whenever the weaker one does. -/
theorem applies_mono {l k : Lookback} (h : l ≤ k) {axis : Axis} {old new : Cell}
    (happlies : l.applies axis old new = true) : k.applies axis old new = true := by
  have hany : ∀ {a : Axis}, axisChange.applies a old new = true →
      anyChange.applies a old new = true := by
    intro a haxis
    refine bne_iff_ne.mpr fun heq => bne_iff_ne.mp haxis ?_
    rw [heq]
  cases l with
  | never => cases happlies
  | axisChange =>
    cases k with
    | never => exact absurd h (by decide)
    | axisChange => exact happlies
    | anyChange => exact hany happlies
  | anyChange =>
    cases k with
    | never => exact absurd h (by decide)
    | axisChange => exact absurd h (by decide)
    | anyChange => exact happlies

/-- No policy looks back into the cell that the move ends in. -/
theorem applies_self (l : Lookback) (axis : Axis) (cell : Cell) :
    l.applies axis cell cell = false := by
  cases l with
  | never => rfl
  | axisChange => exact bne_self_eq_false _
  | anyChange => exact bne_self_eq_false _

end Lookback

namespace Resolver

variable {rules : RuleSet} {c : Category} {grid : Grid} {l k : Lookback} {old old' new : Point}

/-! ### One new position -/

/-- Two resolutions of one new position answer alike when, after a miss in the new cell, they look
    back into the same tile or both look back into none. -/
theorem resolve_eq_of_previousTile?
    (h : ∀ cell tile, Cell.containing? (new + c.offset) grid.tileWidth grid.tileHeight = some cell →
      grid.tileAt cell = some tile → (mk rules l).probe c tile (new + c.offset) grid = none →
      (mk rules l).previousTile? c (old + c.offset) cell grid =
        (mk rules k).previousTile? c (old' + c.offset) cell grid) :
    (mk rules l).resolve c old new grid = (mk rules k).resolve c old' new grid := by
  have hat : (mk rules l).resolveAt c (old + c.offset) (new + c.offset) grid =
      (mk rules k).resolveAt c (old' + c.offset) (new + c.offset) grid := by
    -- A tile is tried alike under both policies.
    have hprobe : ∀ tile p, (mk rules k).probe c tile p grid = (mk rules l).probe c tile p grid :=
      fun _ _ => rfl
    unfold resolveAt
    simp only [hprobe]
    cases hcell : Cell.containing? (new + c.offset) grid.tileWidth grid.tileHeight with
    | none => rfl
    | some cell =>
      dsimp only
      cases htile : grid.tileAt cell with
      | none => rfl
      | some tile =>
        dsimp only
        cases hmiss : (mk rules l).probe c tile (new + c.offset) grid with
        | some found => rfl
        | none =>
          dsimp only
          rw [h cell tile hcell htile hmiss]
  unfold resolve
  rw [hat]

/-- A hit that is not one of the new cell is one of the tile looked back into. -/
theorem exists_previousTile?_of_isHit {cell : Cell} {tile : Tile}
    (h : ((mk rules l).resolve c old new grid).isHit = true)
    (hcell : Cell.containing? (new + c.offset) grid.tileWidth grid.tileHeight = some cell)
    (htile : grid.tileAt cell = some tile)
    (hmiss : (mk rules l).probe c tile (new + c.offset) grid = none) :
    ∃ previous, (mk rules l).previousTile? c (old + c.offset) cell grid = some previous := by
  unfold resolve at h
  split at h
  · cases h
  · unfold resolveAt at h
    simp only [hcell, htile, hmiss] at h
    cases hprevious : (mk rules l).previousTile? c (old + c.offset) cell grid with
    | some previous => exact ⟨previous, rfl⟩
    | none =>
      rw [hprevious] at h
      cases h

/-! ### Policies -/

/-- A move with nothing to look back into, or no reason to: it ends in the cell where it began, it
    began in no cell, or there is no tile in one of its two cells. -/
inductive NothingBehind (c : Category) (grid : Grid) (old new : Point) : Prop where
  | sameCell (h : Cell.containing? (old + c.offset) grid.tileWidth grid.tileHeight =
      Cell.containing? (new + c.offset) grid.tileWidth grid.tileHeight)
  | noOldCell (h : Cell.containing? (old + c.offset) grid.tileWidth grid.tileHeight = none)
  | newHole {cell : Cell}
      (hcell : Cell.containing? (new + c.offset) grid.tileWidth grid.tileHeight = some cell)
      (htile : grid.tileAt cell = none)
  | oldHole {cell : Cell}
      (hcell : Cell.containing? (old + c.offset) grid.tileWidth grid.tileHeight = some cell)
      (htile : grid.tileAt cell = none)

theorem NothingBehind.previousTile?_eq_none (h : NothingBehind c grid old new) {cell : Cell}
    {tile : Tile}
    (hcell : Cell.containing? (new + c.offset) grid.tileWidth grid.tileHeight = some cell)
    (htile : grid.tileAt cell = some tile) (l : Lookback) :
    (mk rules l).previousTile? c (old + c.offset) cell grid = none := by
  refine Option.eq_none_iff_forall_ne_some.mpr fun previous hprevious => ?_
  obtain ⟨oldCell, hold, happlies, htile'⟩ := previousTile?_eq_some_iff.mp hprevious
  cases h with
  | sameCell h =>
    obtain rfl : oldCell = cell := Option.some.inj (hold.symm.trans (h.trans hcell))
    rw [Lookback.applies_self] at happlies
    cases happlies
  | noOldCell h => cases h.symm.trans hold
  | newHole h hhole =>
    cases h.symm.trans hcell
    cases hhole.symm.trans htile
  | oldHole h hhole =>
    cases h.symm.trans hold
    cases hhole.symm.trans htile'

/-- A stronger policy changes no hit. From the policy of the tested axis to the strongest one it
    changes nothing at all once the first of them looks back, and where there is nothing to look
    back into all policies answer alike. -/
theorem resolve_of_stronger (rules : RuleSet) (c : Category) (grid : Grid) (old new : Point) :
    (∀ {l k : Lookback}, l ≤ k → ((mk rules l).resolve c old new grid).isHit = true →
      (mk rules k).resolve c old new grid = (mk rules l).resolve c old new grid) ∧
    (∀ {oldCell cell : Cell},
      Cell.containing? (old + c.offset) grid.tileWidth grid.tileHeight = some oldCell →
      Cell.containing? (new + c.offset) grid.tileWidth grid.tileHeight = some cell →
      Lookback.axisChange.applies c.axis oldCell cell = true →
      (mk rules .anyChange).resolve c old new grid =
        (mk rules .axisChange).resolve c old new grid) ∧
    (NothingBehind c grid old new → ∀ l k : Lookback,
      (mk rules k).resolve c old new grid = (mk rules l).resolve c old new grid) := by
  refine ⟨?_, ?_, ?_⟩
  · intro l k hle hhit
    refine (resolve_eq_of_previousTile? fun cell tile hcell htile hmiss => ?_).symm
    obtain ⟨previous, hprevious⟩ := exists_previousTile?_of_isHit hhit hcell htile hmiss
    obtain ⟨oldCell, hold, happlies, htile'⟩ := previousTile?_eq_some_iff.mp hprevious
    rw [hprevious]
    refine (previousTile?_eq_some_iff.mpr ⟨oldCell, hold, ?_, htile'⟩).symm
    exact Lookback.applies_mono hle happlies
  · intro oldCell cell hold hcell happlies
    refine resolve_eq_of_previousTile? fun cell' tile hcell' _ _ => ?_
    obtain rfl : cell = cell' := Option.some.inj (hcell.symm.trans hcell')
    have hany : Lookback.anyChange.applies c.axis oldCell cell = true :=
      Lookback.applies_mono (by decide) happlies
    unfold previousTile?
    rw [hold]
    exact (if_pos hany).trans (if_pos happlies).symm
  · intro h l k
    refine resolve_eq_of_previousTile? fun cell tile hcell htile _ => ?_
    rw [h.previousTile?_eq_none hcell htile, h.previousTile?_eq_none hcell htile]

/-- A fall from the ledge into a block below it, which is stopped by a look back, and a point that
    rests on the block. -/
theorem resolve_of_stronger_ledge :
    let rules := Draft.ledge.linked ⟨1⟩
    let feet : Category := ⟨"feet", .y, 0, 0, [⟨0⟩], ⟨1⟩, [⟨0⟩, ⟨1⟩], ⟨1⟩⟩
    let field : Field := ⟨16, 16, 16, 16, none,
      [(⟨2, 3⟩, some ⟨0, 1⟩), (⟨2, 4⟩, some ⟨0, 2⟩)], rules⟩
    let old : Point := ⟨.ofInt 40, .ofInt 60⟩
    let new : Point := ⟨.ofInt 40, .ofInt 70⟩
    Lookback.axisChange ≤ .anyChange ∧
      ((mk rules .axisChange).resolve feet old new field.toGrid).isHit = true ∧
      (mk rules .anyChange).resolve feet old new field.toGrid =
        (mk rules .axisChange).resolve feet old new field.toGrid ∧
      Cell.containing? (old + feet.offset) 16 16 = some ⟨2, 3⟩ ∧
      Cell.containing? (new + feet.offset) 16 16 = some ⟨2, 4⟩ ∧
      Lookback.axisChange.applies .y ⟨2, 3⟩ ⟨2, 4⟩ = true ∧
      (mk rules .anyChange).resolve feet old new field.toGrid =
        (mk rules .axisChange).resolve feet old new field.toGrid ∧
      NothingBehind feet field.toGrid new new ∧
      (mk rules .anyChange).resolve feet new new field.toGrid =
        (mk rules .never).resolve feet new new field.toGrid := by
  intro rules feet field old new
  have hle : Lookback.axisChange ≤ .anyChange := by decide
  have hhit : ((mk rules .axisChange).resolve feet old new field.toGrid).isHit = true := by
    decide +kernel
  have hold : Cell.containing? (old + feet.offset) 16 16 = some ⟨2, 3⟩ := by decide +kernel
  have hnew : Cell.containing? (new + feet.offset) 16 16 = some ⟨2, 4⟩ := by decide +kernel
  have happlies : Lookback.axisChange.applies .y ⟨2, 3⟩ ⟨2, 4⟩ = true := by decide
  have hrest : NothingBehind feet field.toGrid new new := .sameCell rfl
  obtain ⟨hstronger, htriggered, _⟩ := resolve_of_stronger rules feet field.toGrid old new
  obtain ⟨_, _, hbehind⟩ := resolve_of_stronger rules feet field.toGrid new new
  exact ⟨hle, hhit, hstronger hle hhit, hold, hnew, happlies, htriggered hold hnew happlies, hrest,
    hbehind hrest .never .anyChange⟩

/-! ### Old positions -/

/-- The tile in the cell of the new position. -/
def newTile? (c : Category) (grid : Grid) (new : Point) : Option Tile :=
  (Cell.containing? (new + c.offset) grid.tileWidth grid.tileHeight).bind grid.tileAt

/-- A formula of the tile in the new cell answers. -/
def HitsInNewCell (rules : RuleSet) (c : Category) (grid : Grid) (new : Point) : Prop :=
  ∃ tile, newTile? c grid new = some tile ∧
    ((mk rules .never).probe c tile (new + c.offset) grid).isSome = true

theorem newTile?_eq_some {cell : Cell} {tile : Tile}
    (hcell : Cell.containing? (new + c.offset) grid.tileWidth grid.tileHeight = some cell)
    (htile : grid.tileAt cell = some tile) : newTile? c grid new = some tile := by
  rw [newTile?, hcell, Option.bind_some, htile]

/-- An old position counts through its cell alone. It does not count at all if the policy never
    looks back, if there is no tile in the new cell, or if a formula answers there. -/
theorem resolve_old_by_cell (rules : RuleSet) (c : Category) (grid : Grid) (old old' new : Point) :
    (Cell.containing? (old + c.offset) grid.tileWidth grid.tileHeight =
        Cell.containing? (old' + c.offset) grid.tileWidth grid.tileHeight →
      ∀ l : Lookback,
        (mk rules l).resolve c old new grid = (mk rules l).resolve c old' new grid) ∧
    (mk rules .never).resolve c old new grid = (mk rules .never).resolve c old' new grid ∧
    (newTile? c grid new = none →
      ∀ l : Lookback,
        (mk rules l).resolve c old new grid = (mk rules l).resolve c old' new grid) ∧
    (HitsInNewCell rules c grid new →
      ∀ l : Lookback,
        (mk rules l).resolve c old new grid = (mk rules l).resolve c old' new grid) := by
  refine ⟨?_, ?_, ?_, ?_⟩
  · intro hcells l
    refine resolve_eq_of_previousTile? fun _ _ _ _ _ => ?_
    unfold previousTile?
    rw [hcells]
  · have hnever : ∀ p cell, (mk rules .never).previousTile? c p cell grid = none := by
      intro p cell
      refine Option.eq_none_iff_forall_ne_some.mpr fun previous hprevious => ?_
      obtain ⟨_, _, happlies, _⟩ := previousTile?_eq_some_iff.mp hprevious
      cases happlies
    exact resolve_eq_of_previousTile? fun _ _ _ _ _ => by rw [hnever, hnever]
  · intro hhole l
    refine resolve_eq_of_previousTile? fun cell tile hcell htile _ => ?_
    cases hhole.symm.trans (newTile?_eq_some hcell htile)
  · intro ⟨tile, htile, hhit⟩ l
    refine resolve_eq_of_previousTile? fun cell tile' hcell htile' hmiss => ?_
    obtain rfl : tile = tile' :=
      Option.some.inj (htile.symm.trans (newTile?_eq_some hcell htile'))
    rw [Option.isSome_iff_exists] at hhit
    obtain ⟨found, hfound⟩ := hhit
    cases hfound.symm.trans hmiss

/-- Falls from the ledge: from two places of one cell and from two places outside all cells, one
    fall into a hole, and one that the floor stops in the new cell. -/
theorem resolve_old_by_cell_ledge :
    let rules := Draft.ledge.linked ⟨1⟩
    let feet : Category := ⟨"feet", .y, 0, 0, [⟨0⟩], ⟨1⟩, [⟨0⟩, ⟨1⟩], ⟨1⟩⟩
    let grid := (Field.mk 16 16 16 16 none
      [(⟨2, 3⟩, some ⟨0, 1⟩), (⟨2, 4⟩, some ⟨0, 2⟩)] rules).toGrid
    let old : Point := ⟨.ofInt 40, .ofInt 60⟩
    let other : Point := ⟨.ofInt 33, .ofInt 48⟩
    let nowhere : Point := ⟨.nan, .ofInt 60⟩
    let faraway : Point := ⟨.ofInt 40, .infinite true⟩
    let below : Point := ⟨.ofInt 40, .ofInt 70⟩
    let hole : Point := ⟨.ofInt 40, .ofInt 90⟩
    let floor : Point := ⟨.ofInt 40, .ofInt 63⟩
    Cell.containing? (old + feet.offset) 16 16 = Cell.containing? (other + feet.offset) 16 16 ∧
      (mk rules .axisChange).resolve feet old below grid =
        (mk rules .axisChange).resolve feet other below grid ∧
      Cell.containing? (nowhere + feet.offset) 16 16 =
        Cell.containing? (faraway + feet.offset) 16 16 ∧
      (mk rules .axisChange).resolve feet nowhere below grid =
        (mk rules .axisChange).resolve feet faraway below grid ∧
      newTile? feet grid hole = none ∧
      (mk rules .anyChange).resolve feet old hole grid =
        (mk rules .anyChange).resolve feet nowhere hole grid ∧
      HitsInNewCell rules feet grid floor ∧
      (mk rules .anyChange).resolve feet old floor grid =
        (mk rules .anyChange).resolve feet nowhere floor grid := by
  intro rules feet grid old other nowhere faraway below hole floor
  have hsame : Cell.containing? (old + feet.offset) 16 16 =
      Cell.containing? (other + feet.offset) 16 16 := by decide +kernel
  have houtside : Cell.containing? (nowhere + feet.offset) 16 16 =
      Cell.containing? (faraway + feet.offset) 16 16 := by decide +kernel
  have hhole : newTile? feet grid hole = none := by decide +kernel
  have hhit : HitsInNewCell rules feet grid floor :=
    ⟨⟨some ⟨0, 1⟩, ⟨2, 3⟩, 16, 16⟩, by decide +kernel, by decide +kernel⟩
  exact ⟨hsame, (resolve_old_by_cell rules feet grid old other below).1 hsame .axisChange,
    houtside, (resolve_old_by_cell rules feet grid nowhere faraway below).1 houtside .axisChange,
    hhole, (resolve_old_by_cell rules feet grid old nowhere hole).2.2.1 hhole .anyChange,
    hhit, (resolve_old_by_cell rules feet grid old nowhere floor).2.2.2 hhit .anyChange⟩

end Resolver
end Terrain
