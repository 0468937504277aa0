import Terrain.Proofs.Resolver.Answers
import Terrain.Proofs.RuleSet.ReadBack

/-! ## Loosened rules

A constraint can only switch its formula off. So when groups are struck from constraints, whatever
was eligible stays eligible, and the first eligible position of a tile comes no later. A move that
was stopped is still stopped, though perhaps by another formula, and in the new cell where it was
looked back for before. -/

namespace Terrain

/-! ### Drafts -/

/-- The other formula differs at most in its constraint, which names no group that this one does not
    name in the same direction. -/
structure FormulaDraft.LoosenedTo (f f' : FormulaDraft) : Prop where
  name_eq : f'.name = f.name
  zone_eq : f'.zone = f.zone
  line_eq : f'.line = f.line
  blockedAt_subset : ∀ o, f'.blockedAt o ⊆ f.blockedAt o

/-- The other draft has the same definitions, but some groups may be struck from constraints. -/
structure Draft.LoosenedTo (d d' : Draft) : Prop where
  formulas : List.Forall₂ FormulaDraft.LoosenedTo d.formulas d'.formulas
  groups : d'.groups = d.groups
  categories : d'.categories = d.categories

/-- The whole constraint may be struck. -/
theorem FormulaDraft.loosenedTo_new (f : FormulaDraft) :
    f.LoosenedTo (new f.name f.zone f.line) where
  name_eq := rfl
  zone_eq := rfl
  line_eq := rfl
  blockedAt_subset := by
    intro o
    rw [blockedAt, new, Compass.get_fill, Option.getD_none]
    exact List.nil_subset _

theorem FormulaDraft.LoosenedTo.wellFormed {f f' : FormulaDraft} (h : f.LoosenedTo f')
    {groups : List String} (hf : f.WellFormed groups) : f'.WellFormed groups where
  zone := h.zone_eq ▸ hf.zone
  line := h.line_eq ▸ hf.line
  blocked := fun o name hname => hf.blocked o name (h.blockedAt_subset o hname)

/-! ### Rule sets -/

/-- The other formula gives the same values in the same zone, and nothing blocks it that does not
    block this one. -/
structure Formula.LoosenedTo (f f' : Formula) : Prop where
  zone_eq : f'.zone = f.zone
  line_eq : f'.line = f.line
  contains_blockers : ∀ {o g}, (f'.constraint.blockers.get o).contains g = true →
    (f.constraint.blockers.get o).contains g = true

/-- The other rule set has the same groups, and at each place the same formula or a loosened one. -/
structure RuleSet.LoosenedTo (r r' : RuleSet) : Prop where
  formulas : List.Forall₂ Formula.LoosenedTo r.formulas r'.formulas
  groups : r'.groups = r.groups

theorem FormulaDraft.LoosenedTo.linked {f f' : FormulaDraft} (h : f.LoosenedTo f')
    (groups : List String) : (f.linked groups).LoosenedTo (f'.linked groups) where
  zone_eq := h.zone_eq
  line_eq := h.line_eq
  contains_blockers := by
    intro o g hg
    simp only [FormulaDraft.linked, get_constraint, contains_blockers_iff] at hg ⊢
    obtain ⟨⟨name, hname, hplace⟩, hlt⟩ := hg
    exact ⟨⟨name, h.blockedAt_subset o hname, hplace⟩, hlt⟩

namespace Draft.LoosenedTo

variable {d d' : Draft} (h : d.LoosenedTo d')

include h

theorem groupNames_eq : d'.groupNames = d.groupNames := by
  rw [groupNames, h.groups, groupNames]

theorem formulaNames_eq : d'.formulaNames = d.formulaNames :=
  (map_eq_of_forall₂ (fun hab => hab.name_eq.symm) h.formulas).symm

theorem linkedGroups_eq : d'.linkedGroups = d.linkedGroups := by
  rw [linkedGroups, h.groups, h.formulaNames_eq, linkedGroups]

theorem wellFormed (hd : d.WellFormed) : d'.WellFormed := by
  have hcategoryNames : d'.categoryNames = d.categoryNames := by
    rw [categoryNames, h.categories, categoryNames]
  refine hd.of_names_eq h.groupNames_eq h.formulaNames_eq hcategoryNames ?_ ?_ ?_
  · exact forall_mem_of_forall₂ (fun _ _ hab ha => hab.wellFormed ha) h.formulas hd.formulas
  · rw [h.groups]
    exact hd.groups
  · rw [h.categories]
    exact hd.categories

theorem linked (id id' : RuleSetId) : (d.linked id).LoosenedTo (d'.linked id') where
  formulas := by
    show List.Forall₂ _ (d.formulas.map _) (d'.formulas.map _)
    rw [h.groupNames_eq, List.forall₂_map_left_iff, List.forall₂_map_right_iff]
    exact h.formulas.imp fun _ _ hab => hab.linked _
  groups := h.linkedGroups_eq

end Draft.LoosenedTo

/-! ### Positions -/

namespace RuleSet.LoosenedTo

variable {r r' : RuleSet} {c c' : Category} {grid : Grid} {tile : Tile}

section

variable (h : r.LoosenedTo r')

include h

theorem exists_formula? {k : FormulaId} {f : Formula} (hf : r.formula? k = some f) :
    ∃ f', r'.formula? k = some f' ∧ f.LoosenedTo f' :=
  exists_of_rel_some (getElem?_of_forall₂ h.formulas k.index) hf

theorem groupsForTile_eq : r'.groupsForTile = r.groupsForTile := by
  unfold groupsForTile
  rw [h.groups]

variable (hgroups : c'.groups = c.groups) (haxis : c'.axis = c.axis)

include hgroups haxis

/-- What is eligible stays eligible. -/
theorem exists_eligible {p : Pixel} {i j : Nat} {f : Formula}
    (he : r.Eligible c grid tile p i j f) : ∃ f', r'.Eligible c' grid tile p i j f' := by
  obtain ⟨g, ⟨hi, group, k, hgroup, hj, hf⟩, hown⟩ := he.listed
  obtain ⟨f', hf', hloosened⟩ := h.exists_formula? hf
  refine ⟨f', ⟨g, ⟨?_, group, k, ?_, hj, hf'⟩, hown⟩, ?_, ?_, ?_, ?_⟩
  · rw [hgroups]
    exact hi
  · rw [group?, h.groups]
    exact hgroup
  · rw [hloosened.zone_eq, haxis]
    exact he.axis
  · rw [hloosened.zone_eq]
    exact he.covers
  · rw [Formula.valueAt, Formula.inputAt, hloosened.zone_eq, hloosened.line_eq]
    exact he.finite
  -- Of all conditions only this one reads the constraint, and it reads it negatively.
  · exact fun o g hg => he.free o g (hloosened.contains_blockers hg)

/-- The first eligible position comes no later. -/
theorem exists_first (hmask : ∀ g ∈ c'.groups, c'.mask.contains g = true) {point : Point}
    {i j : Nat} {f : Formula} (hfirst : r.First c grid tile (tile.pixelAt point) i j f) :
    ∃ i' j' f', r'.First c' grid tile (tile.pixelAt point) i' j' f' ∧
      (i' < i ∨ i' = i ∧ j' ≤ j) := by
  obtain ⟨f', he⟩ := h.exists_eligible hgroups haxis hfirst.eligible
  obtain ⟨i', j', f'', hfirst', _⟩ | ⟨hnone, _⟩ :=
    Resolver.probe_cases (Resolver.mk r' .never) tile hmask point
  · exact ⟨i', j', f'', hfirst', hfirst'.least he⟩
  · -- The position that was first is still eligible, so some position is.
    exact absurd he (hnone i j f')

end

end RuleSet.LoosenedTo

/-! ### Moves -/

namespace Resolver

/-- The answer for a move comes from the new cell, from the formula at place `j` of the group at
    place `i` of the category. -/
def HitsAt (r : Resolver) (c : Category) (grid : Grid) (old new : Point) (i j : Nat) : Prop :=
  ∃ cell tile f,
    Cell.containing? (new + c.offset) grid.tileWidth grid.tileHeight = some cell ∧
      grid.tileAt cell = some tile ∧
      r.rules.First c grid tile (tile.pixelAt (new + c.offset)) i j f ∧
      r.resolve c old new grid = .hit c.axis tile (f.valueAt (tile.pixelAt (new + c.offset)))

/-- What a second resolver finds for a move, compared with a first one: no collision is lost, one in
    the new cell is found there and no later, and where nothing is found nothing was found, in the
    same tile. -/
structure LosesNothing (r r' : Resolver) (c c' : Category) (grid grid' : Grid) (old new : Point) :
    Prop where
  isHit : (r.resolve c old new grid).isHit = true → (r'.resolve c' old new grid').isHit = true
  hitsAt : ∀ {i j}, r.HitsAt c grid old new i j →
    ∃ i' j', r'.HitsAt c' grid' old new i' j' ∧ (i' < i ∨ i' = i ∧ j' ≤ j)
  miss : ∀ {tile}, r'.resolve c' old new grid' = .miss tile → r.resolve c old new grid = .miss tile

theorem isHit_of_blocked {axis : Axis} {tile : Tile} {value : Binary64} {found : Contact}
    (h : Contact.Blocked tile value axis found) : found.isHit = true := by
  cases h with
  | x => rfl
  | y => rfl

theorem isHit_eq_false_iff {found : Contact} :
    found.isHit = false ↔ ∃ tile, found = .miss tile := by
  obtain ⟨x, y, tile⟩ := found
  constructor
  · intro h
    obtain ⟨hx, hy⟩ := Bool.or_eq_false_iff.mp h
    rw [Option.isSome_eq_false_iff, Option.isNone_iff_eq_none] at hx hy
    exact ⟨tile, congrArg₂ (Contact.mk · · tile) hx hy⟩
  · rintro ⟨_, h⟩
    cases h
    rfl

/-- A category of the rules on cells that have a size is never refused. -/
theorem resolve_eq_resolveAt {r : Resolver} {c : Category} {grid : Grid}
    (hsize : ¬(grid.tileWidth = 0 ∨ grid.tileHeight = 0)) (hc : c.rules = r.rules.id)
    (old new : Point) :
    r.resolve c old new grid = r.resolveAt c (old + c.offset) (new + c.offset) grid := by
  unfold resolve
  rw [if_neg]
  rintro (h | h | h)
  · exact hsize (.inl h)
  · exact hsize (.inr h)
  · exact h hc

/-- Where the tile of the new cell answers by itself, the move is answered from one of its
    positions. -/
theorem exists_hitsAt {r : Resolver} {c : Category} {grid : Grid} {old new : Point} (cell : Cell)
    (tile : Tile) (hsize : ¬(grid.tileWidth = 0 ∨ grid.tileHeight = 0)) (hc : c.rules = r.rules.id)
    (hmask : ∀ g ∈ c.groups, c.mask.contains g = true)
    (hcell : Cell.containing? (new + c.offset) grid.tileWidth grid.tileHeight = some cell)
    (htile : grid.tileAt cell = some tile)
    (hprobe : (r.probe c tile (new + c.offset) grid).isSome = true) :
    ∃ i j, r.HitsAt c grid old new i j := by
  obtain ⟨i, j, f, hfirst, _⟩ | ⟨_, hnone⟩ := r.probe_cases tile hmask (new + c.offset)
  · refine ⟨i, j, cell, tile, f, hcell, htile, hfirst, ?_⟩
    rw [resolve_eq_resolveAt hsize hc]
    exact (Answers.hit hcell htile hfirst (Contact.blocked_hit ..)).resolveAt_eq hmask
  · rw [hnone] at hprobe
    cases hprobe

section

variable {r r' : RuleSet} {c c' : Category} {lookback : Lookback} {grid : Grid} {old new : Point}
  (h : r.LoosenedTo r') (hgroups : c'.groups = c.groups) (haxis : c'.axis = c.axis)

include h hgroups haxis

/-- A miss with loosened rules is the answer of the first rules too. -/
theorem Answers.of_loosened {found : Contact}
    (hfound : (mk r' lookback).Answers c' grid old new found) (hmiss : found.isHit = false) :
    (mk r lookback).Answers c grid old new found := by
  have hnot : ∀ {tile p}, (∀ i j f, ¬r'.Eligible c' grid tile p i j f) →
      ∀ i j f, ¬r.Eligible c grid tile p i j f := by
    intro tile p hnone i j f he
    obtain ⟨f', he'⟩ := h.exists_eligible hgroups haxis he
    exact hnone i j f' he'
  have hlooks : ∀ {cell previous}, (mk r' lookback).LooksBack c' grid old cell previous ↔
      (mk r lookback).LooksBack c grid old cell previous := by
    intro cell previous
    simp only [LooksBack, haxis]
  -- A miss says that no position is eligible, and so none was under the first rules.
  cases hfound with
  | unaddressable hcell => exact .unaddressable hcell
  | hole hcell htile => exact .hole hcell htile
  | hit _ _ _ hfound => exact absurd (isHit_of_blocked hfound) (Bool.eq_false_iff.mp hmiss)
  | hitBack _ _ _ _ _ hfound => exact absurd (isHit_of_blocked hfound) (Bool.eq_false_iff.mp hmiss)
  | missBack hcell htile hnone hback hnone' =>
    exact .missBack hcell htile (hnot hnone) (hlooks.mp hback) (hnot hnone')
  | miss hcell htile hnone hback =>
    exact .miss hcell htile (hnot hnone) fun previous hprevious =>
      hback previous (hlooks.mpr hprevious)

theorem losesNothing_of_loosened (hx : c'.offsetX = c.offsetX) (hy : c'.offsetY = c.offsetY)
    (hrules : c.rules = r.id) (hrules' : c'.rules = r'.id)
    (hmask : ∀ g ∈ c.groups, c.mask.contains g = true)
    (hmask' : ∀ g ∈ c'.groups, c'.mask.contains g = true) :
    (mk r lookback).LosesNothing (mk r' lookback) c c' grid grid old new := by
  have hoffset : c'.offset = c.offset := by
    unfold Category.offset
    rw [hx, hy]
  have hmiss : ∀ {tile}, (mk r' lookback).resolve c' old new grid = .miss tile →
      (mk r lookback).resolve c old new grid = .miss tile := by
    intro tile hfound
    by_cases hsize : grid.tileWidth = 0 ∨ grid.tileHeight = 0
    · -- Both are refused, with the same answer.
      rw [← hfound]
      unfold resolve
      rw [if_pos (hsize.imp_right .inl), if_pos (hsize.imp_right .inl)]
    · rw [resolve_eq_resolveAt hsize hrules', hoffset] at hfound
      rw [resolve_eq_resolveAt hsize hrules]
      have hanswers : (mk r' lookback).Answers c' grid (old + c.offset) (new + c.offset)
          (.miss tile) := hfound ▸ answers_resolveAt hmask'
      exact (hanswers.of_loosened h hgroups haxis rfl).resolveAt_eq hmask
  refine ⟨?_, ?_, hmiss⟩
  · -- A collision that was lost would be a miss, and then there was none to lose.
    intro hhit
    rw [← Bool.not_eq_false]
    intro hfalse
    obtain ⟨tile, hfound⟩ := isHit_eq_false_iff.mp hfalse
    rw [hmiss hfound] at hhit
    cases hhit
  · rintro i j ⟨cell, tile, f, hcell, htile, hfirst, hfound⟩
    obtain ⟨i', j', f', hfirst', hle⟩ := h.exists_first hgroups haxis hmask' hfirst
    have hsize : ¬(grid.tileWidth = 0 ∨ grid.tileHeight = 0) := by
      -- Cells of no size are refused, and that is no hit.
      intro hsize
      unfold resolve at hfound
      rw [if_pos (hsize.imp_right .inl)] at hfound
      have hhit := isHit_of_blocked
        (Contact.blocked_hit c.axis tile (f.valueAt (tile.pixelAt (new + c.offset))))
      rw [← hfound] at hhit
      cases hhit
    refine ⟨i', j', ⟨cell, tile, f', ?_, htile, ?_, ?_⟩, hle⟩
    · rw [hoffset]
      exact hcell
    · rw [hoffset]
      exact hfirst'
    · rw [resolve_eq_resolveAt hsize hrules', hoffset]
      exact (Answers.hit hcell htile hfirst' (Contact.blocked_hit ..)).resolveAt_eq hmask'

end

end Resolver

/-! ### Maps -/

/-- Maps of the same pictures are the same where each picture has the same groups. -/
theorem TileMap.make_congr {r r' : RuleSet} (h : r'.groupsForTile = r.groupsForTile)
    (columns rows tileWidth tileHeight : UInt32) (tiles : Array (Option TileId)) :
    make columns rows tileWidth tileHeight tiles r' =
      make columns rows tileWidth tileHeight tiles r := by
  have hplace : place r' = place r := by
    funext tile
    unfold place
    rw [h]
  unfold make
  rw [hplace]

namespace Draft

/-- A loosened draft is accepted, and no category loses a collision by it on any map. -/
theorem link_loosened {d d' : Draft} (h : d.LoosenedTo d') {id : RuleSetId} {r : RuleSet}
    (hr : d.link id = .ok r) (id' : RuleSetId) :
    ∃ r', d'.link id' = .ok r' ∧
      ∀ {columns rows tileWidth tileHeight : UInt32} {tiles : Array (Option TileId)} {m : TileMap},
        TileMap.make columns rows tileWidth tileHeight tiles r = .ok m →
        ∃ m', TileMap.make columns rows tileWidth tileHeight tiles r' = .ok m' ∧
          ∀ name, Option.Rel
            (fun c c' => ∀ lookback old new,
              (Resolver.mk r lookback).LosesNothing (Resolver.mk r' lookback) c c'
                m.toGrid m'.toGrid old new)
            (r.categoryNamed? name) (r'.categoryNamed? name) := by
  obtain ⟨hd, rfl⟩ := link_eq_ok_iff.mp hr
  have hd' := h.wellFormed hd
  have hlinked := h.linked id id'
  refine ⟨d'.linked id', link_eq_ok_iff.mpr ⟨hd', rfl⟩, fun {_ _ _ _ _ m} hm => ⟨m, ?_, ?_⟩⟩
  · rw [TileMap.make_congr hlinked.groupsForTile_eq]
    exact hm
  · refine rel_categoryNamed?_linked h.categories fun c hc lookback old new => ?_
    have hc' : c ∈ d'.categories := h.categories ▸ hc
    have hgroups : (c.linked d'.linkedGroups id').groups = (c.linked d.linkedGroups id).groups := by
      rw [h.linkedGroups_eq]
      rfl
    exact Resolver.losesNothing_of_loosened hlinked hgroups rfl rfl rfl rfl rfl
      (hd.linked_mem_mask hc id) (hd'.linked_mem_mask hc' id')

/-- The ledge with a floor that nothing switches off, under a block. The fall that the slope stops
    at first is stopped in the new cell again. -/
theorem link_loosened_ledge :
    let loose : Draft := { ledge with
      formulas := [.new "floor" ⟨.y, 0, 15, 15, 15⟩ ⟨.ofInt 0, .ofInt 16⟩,
        .new "low" ⟨.y, 0, 15, 15, 15⟩ ⟨.ofInt 1, .ofInt 4⟩] }
    let r := ledge.linked ⟨1⟩
    let r' := loose.linked ⟨2⟩
    let feet : Category := ⟨"feet", .y, 0, 0, [⟨0⟩], ⟨1⟩, [⟨0⟩, ⟨1⟩], ⟨1⟩⟩
    let tiles : Array (Option TileId) := #[some ⟨0, 2⟩, some ⟨0, 1⟩]
    let m : TileMap := ⟨1, 2, 16, 16, tiles.map (TileMap.place r)⟩
    let old : Point := ⟨.ofInt 8, .ofInt 10⟩
    let new : Point := ⟨.ofInt 8, .ofInt 31⟩
    ledge.LoosenedTo loose ∧ ledge.link ⟨1⟩ = .ok r ∧ loose.link ⟨2⟩ = .ok r' ∧
      TileMap.make 1 2 16 16 tiles r = .ok m ∧ r.categoryNamed? "feet" = some feet ∧
      ∃ m' feet', TileMap.make 1 2 16 16 tiles r' = .ok m' ∧
        r'.categoryNamed? "feet" = some feet' ∧
        ∃ i j, (Resolver.mk r .never).HitsAt feet m.toGrid old new i j ∧
          ∃ i' j', (Resolver.mk r' .never).HitsAt feet' m'.toGrid old new i' j' ∧
            (i' < i ∨ i' = i ∧ j' ≤ j) := by
  intro loose r r' feet tiles m old new
  have hloosened : ledge.LoosenedTo loose :=
    ⟨.cons (FormulaDraft.loosenedTo_new _) (.cons (FormulaDraft.loosenedTo_new _) .nil), rfl, rfl⟩
  have hlink : loose.link ⟨2⟩ = .ok r' := by
    refine link_eq_ok_iff.mpr ⟨?_, rfl⟩
    decide +kernel
  have hmake : TileMap.make 1 2 16 16 tiles r = .ok m := rfl
  have hfeet : r.categoryNamed? "feet" = some feet := by decide +kernel
  obtain ⟨_, hlink', hmaps⟩ := link_loosened hloosened (link_ledge ⟨1⟩) ⟨2⟩
  cases hlink.symm.trans hlink'
  obtain ⟨m', hmake', hcategories⟩ := hmaps hmake
  obtain ⟨feet', hfeet', hloses⟩ := exists_of_rel_some (hcategories "feet") hfeet
  obtain ⟨i, j, hhits⟩ : ∃ i j, (Resolver.mk r .never).HitsAt feet m.toGrid old new i j :=
    Resolver.exists_hitsAt ⟨0, 1⟩ ⟨some ⟨0, 1⟩, ⟨0, 1⟩, 16, 16⟩ (by decide +kernel) rfl
      (by decide +kernel) (by decide +kernel) (by decide +kernel) (by decide +kernel)
  exact ⟨hloosened, link_ledge ⟨1⟩, hlink, hmake, hfeet, m', feet', hmake', hfeet', i, j, hhits,
    (hloses .never old new).hitsAt hhits⟩

end Draft
end Terrain
