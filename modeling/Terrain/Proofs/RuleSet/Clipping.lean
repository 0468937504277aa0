import Terrain.Grid.Field
import Terrain.Proofs.Resolver.Strict
import Terrain.Proofs.RuleSet.Naming

/-! ## Clipped rules

The pixel under a point is always one of the tile. So where all tiles have one size, a zone may be
cut down to that size, and a formula whose zone has no pixel of a tile may be left out of the
groups. The formulas after it move up in every list, and each move still finds what it found. -/

namespace Terrain

/-! ### The pixels of a tile -/

/-- A size of tiles: at least one pixel each way, and no more than a signed word can count. -/
structure TileSize where
  width : UInt32
  height : UInt32
  width_pos : 0 < width.toNat
  width_lt : width.toNat < 2 ^ 31
  height_pos : 0 < height.toNat
  height_lt : height.toNat < 2 ^ 31

/-- A pixel of the tiles of a size. -/
structure TileSize.Contains (s : TileSize) (p : Pixel) : Prop where
  x_nonneg : 0 ≤ p.x
  x_le : p.x ≤ s.width.toNat - 1
  y_nonneg : 0 ≤ p.y
  y_le : p.y ≤ s.height.toNat - 1

/-- Every tile on the grid has the size. The cells may have another one. -/
def Grid.TiledBy (grid : Grid) (s : TileSize) : Prop :=
  ∀ {cell tile}, grid.tileAt cell = some tile → tile.width = s.width ∧ tile.height = s.height

theorem Field.tiledBy_toGrid {f : Field} {s : TileSize} (hwidth : f.shownWidth = s.width)
    (hheight : f.shownHeight = s.height) : f.toGrid.TiledBy s := by
  intro cell tile h
  obtain ⟨_, _, rfl⟩ := Option.map_eq_some_iff.mp h
  exact ⟨hwidth, hheight⟩

/-- Whatever the distance, its pixel coordinate lies in the extent. -/
theorem Tile.pixelCoordinate_within (distance : Binary64) (extent : UInt32) :
    0 ≤ pixelCoordinate distance extent ∧ pixelCoordinate distance extent ≤ lastPixel extent := by
  unfold pixelCoordinate lastPixel
  omega

theorem Tile.lastPixel_eq {extent : UInt32} (hpos : 0 < extent.toNat)
    (hlt : extent.toNat < 2 ^ 31) : lastPixel extent = extent.toNat - 1 := by
  unfold lastPixel
  omega

theorem TileSize.contains_pixelAt {s : TileSize} {t : Tile} (hwidth : t.width = s.width)
    (hheight : t.height = s.height) (p : Point) : s.Contains (t.pixelAt p) := by
  obtain ⟨hx, hx'⟩ := Tile.pixelCoordinate_within (p - t.origin).x t.width
  obtain ⟨hy, hy'⟩ := Tile.pixelCoordinate_within (p - t.origin).y t.height
  have hlastX : Tile.lastPixel t.width = s.width.toNat - 1 := by
    rw [hwidth, Tile.lastPixel_eq s.width_pos s.width_lt]
  have hlastY : Tile.lastPixel t.height = s.height.toNat - 1 := by
    rw [hheight, Tile.lastPixel_eq s.height_pos s.height_lt]
  exact ⟨hx, Int.le_trans hx' (Int.le_of_eq hlastX), hy, Int.le_trans hy' (Int.le_of_eq hlastY)⟩

/-! ### Zones -/

/-- A zone is in order when it has a pixel. -/
theorem Zone.ordered_iff_exists {z : Zone} : z.Ordered ↔ ∃ p, z.contains p = true := by
  simp only [contains, Bool.and_eq_true, decide_eq_true_eq]
  constructor
  · intro h
    have hx := Int32.le_iff_toInt_le.mp h.x
    have hy := Int32.le_iff_toInt_le.mp h.y
    exact ⟨⟨z.minX.toInt, z.minY.toInt⟩, ⟨⟨Int.le_refl _, hx⟩, Int.le_refl _⟩, hy⟩
  · intro ⟨p, ⟨⟨hminX, hmaxX⟩, hminY⟩, hmaxY⟩
    exact ⟨Int32.le_iff_toInt_le.mpr (Int.le_trans hminX hmaxX),
      Int32.le_iff_toInt_le.mpr (Int.le_trans hminY hmaxY)⟩

/-- A lower bound, moved up to the first pixel. -/
def clipLower (bound : Int32) : Int32 := .ofInt (max bound.toInt 0)

/-- An upper bound, moved down to the last pixel. -/
def clipUpper (extent : UInt32) (bound : Int32) : Int32 :=
  .ofInt (min bound.toInt (extent.toNat - 1))

theorem toInt_clipLower (bound : Int32) : (clipLower bound).toInt = max bound.toInt 0 := by
  have := bound.le_toInt
  have := bound.toInt_lt
  exact Int32.toInt_ofInt_of_le (by omega) (by omega)

theorem toInt_clipUpper {extent : UInt32} (h : extent.toNat < 2 ^ 31) (bound : Int32) :
    (clipUpper extent bound).toInt = min bound.toInt (extent.toNat - 1) := by
  have := bound.le_toInt
  have := bound.toInt_lt
  exact Int32.toInt_ofInt_of_le (by omega) (by omega)

/-- The part of a zone in the tiles of a size; its bounds are out of order if there is none. -/
def Zone.inTile (s : TileSize) (z : Zone) : Zone :=
  ⟨z.axis, clipLower z.minX, clipUpper s.width z.maxX, clipLower z.minY, clipUpper s.height z.maxY⟩

/-- Whether a zone has a pixel in the tiles of a size. -/
def Zone.meets (s : TileSize) (z : Zone) : Bool :=
  decide ((z.inTile s).minX ≤ (z.inTile s).maxX) && decide ((z.inTile s).minY ≤ (z.inTile s).maxY)

/-- The zone cut down to the tiles of a size. A zone outside the tiles stays as it is, for nothing
    is left that could be kept in order. -/
def Zone.clip (s : TileSize) (z : Zone) : Zone := if z.meets s then z.inTile s else z

namespace Zone

variable {s : TileSize} {z : Zone} {p : Pixel}

theorem contains_inTile_iff :
    (z.inTile s).contains p = true ↔ z.contains p = true ∧ s.Contains p := by
  simp only [contains, inTile, Bool.and_eq_true, decide_eq_true_eq, toInt_clipLower,
    toInt_clipUpper s.width_lt, toInt_clipUpper s.height_lt, Int.max_le, Int.le_min]
  constructor
  · intro ⟨⟨⟨⟨hminX, hx⟩, hmaxX, hx'⟩, hminY, hy⟩, hmaxY, hy'⟩
    exact ⟨⟨⟨⟨hminX, hmaxX⟩, hminY⟩, hmaxY⟩, hx, hx', hy, hy'⟩
  · intro ⟨⟨⟨⟨hminX, hmaxX⟩, hminY⟩, hmaxY⟩, hx, hx', hy, hy'⟩
    exact ⟨⟨⟨⟨hminX, hx⟩, hmaxX, hx'⟩, hminY, hy⟩, hmaxY, hy'⟩

theorem meets_iff_ordered : z.meets s = true ↔ (z.inTile s).Ordered := by
  rw [meets, Bool.and_eq_true, decide_eq_true_eq, decide_eq_true_eq]
  exact ⟨fun h => ⟨h.1, h.2⟩, fun h => ⟨h.x, h.y⟩⟩

theorem meets_iff_exists : z.meets s = true ↔ ∃ p, z.contains p = true ∧ s.Contains p := by
  simp only [meets_iff_ordered, ordered_iff_exists, contains_inTile_iff]

theorem axis_clip (z : Zone) : (z.clip s).axis = z.axis := by
  unfold clip
  split
  · rfl
  · rfl

theorem Ordered.clip (h : z.Ordered) : (z.clip s).Ordered := by
  unfold Zone.clip
  split
  · rename_i hmeets
    exact meets_iff_ordered.mp hmeets
  · exact h

/-- In a tile, the clipped zones that meet it contain what the zones contained. -/
theorem meets_and_contains_clip (hp : s.Contains p) (z : Zone) :
    (z.meets s && (z.clip s).contains p) = z.contains p := by
  refine Bool.eq_iff_iff.mpr ?_
  rw [Bool.and_eq_true]
  constructor
  · intro ⟨hmeets, hclip⟩
    rw [Zone.clip, if_pos hmeets] at hclip
    exact (contains_inTile_iff.mp hclip).1
  · -- The pixel itself shows that the zone meets the tile.
    intro hz
    have hmeets : z.meets s = true := meets_iff_exists.mpr ⟨p, hz, hp⟩
    rw [Zone.clip, if_pos hmeets]
    exact ⟨hmeets, contains_inTile_iff.mpr ⟨hz, hp⟩⟩

end Zone

/-! ### Formulas -/

/-- The formula with its zone clipped. -/
def FormulaDraft.clip (s : TileSize) (f : FormulaDraft) : FormulaDraft :=
  { f with zone := f.zone.clip s }

namespace FormulaDraft

variable {s : TileSize}

theorem WellFormed.clip {f : FormulaDraft} {groups : List String} (h : f.WellFormed groups) :
    (f.clip s).WellFormed groups where
  zone := h.zone.clip
  line := h.line
  blocked := h.blocked

theorem valueAt_clip (f : FormulaDraft) (p : Pixel) : (f.clip s).valueAt p = f.valueAt p := by
  unfold valueAt
  rw [show (f.clip s).zone.axis = f.zone.axis from f.zone.axis_clip]
  rfl

/-- In a tile, the clipped formulas that meet it fire where the formulas fired. -/
theorem meets_and_fires_clip {p : Pixel} (hp : s.Contains p) (f : FormulaDraft) (axis : Axis)
    (around : Orientation → String → Bool) :
    (f.zone.meets s && (f.clip s).fires axis p around) = f.fires axis p around := by
  have hfires : (f.clip s).fires axis p around =
      (decide (f.zone.axis = axis) && (f.zone.clip s).contains p && !f.blockedAmid around &&
        (f.valueAt p).isFinite) := by
    rw [← valueAt_clip f p, ← f.zone.axis_clip]
    rfl
  rw [hfires, fires, ← f.zone.meets_and_contains_clip hp]
  simp only [Bool.and_assoc, Bool.and_left_comm]

end FormulaDraft

/-! ### Drafts -/

namespace Draft

/-- Whether a group may go on listing a name: not if it is that of a formula outside the tiles. -/
def keeps (s : TileSize) (d : Draft) (name : String) : Bool :=
  (d.formulaNamed? name).all (·.zone.meets s)

/-- The draft with its zones clipped, and with the formulas outside the tiles left out of the
    groups. -/
def clip (s : TileSize) (d : Draft) : Draft where
  formulas := d.formulas.map (·.clip s)
  groups := d.groups.map fun g => { g with formulas := g.formulas.filter (d.keeps s) }
  categories := d.categories

variable {s : TileSize} {d : Draft}

theorem groupNames_clip : (d.clip s).groupNames = d.groupNames := List.map_map

theorem formulaNames_clip : (d.clip s).formulaNames = d.formulaNames := List.map_map

theorem WellFormed.clip (h : d.WellFormed) : (d.clip s).WellFormed := by
  refine h.of_names_eq groupNames_clip formulaNames_clip rfl ?_ ?_ h.categories
  · exact List.forall_mem_map.mpr fun f hf => (h.formulas f hf).clip
  · refine List.forall_mem_map.mpr fun g hg => ⟨(h.groups g hg).tiles, fun name hname => ?_⟩
    exact (h.groups g hg).formulas name (List.mem_filter.mp hname).1

theorem formulaNamed?_clip (name : String) :
    (d.clip s).formulaNamed? name = (d.formulaNamed? name).map (·.clip s) :=
  List.find?_map

theorem groupNamed?_clip (name : String) :
    (d.clip s).groupNamed? name =
      (d.groupNamed? name).map fun g => { g with formulas := g.formulas.filter (d.keeps s) } :=
  List.find?_map

theorem formulasOf_clip (name : String) :
    (d.clip s).formulasOf name =
      ((d.formulasOf name).filter (·.zone.meets s)).map (·.clip s) := by
  unfold formulasOf
  rw [groupNamed?_clip]
  cases d.groupNamed? name with
  | none => rfl
  | some g =>
    simp only [Option.map_some, List.filterMap_filter, List.filter_filterMap, List.map_filterMap]
    -- Name by name: one of no formula is kept and finds nothing, before and after.
    refine congrArg (List.filterMap · g.formulas) (funext fun formula => ?_)
    rw [formulaNamed?_clip, keeps]
    cases d.formulaNamed? formula with
    | none => rfl
    | some f => cases hmeets : f.zone.meets s <;> simp [Option.filter, hmeets]

theorem candidates_clip (c : CategoryDraft) (own : String → Bool) :
    (d.clip s).candidates c own =
      ((d.candidates c own).filter (·.zone.meets s)).map (·.clip s) := by
  simp only [candidates, List.filter_flatMap, List.map_flatMap]
  exact congrArg (List.flatMap · _) (funext formulasOf_clip)

/-- At the pixels of a tile the clipped draft answers as before. -/
theorem answer_clip {p : Pixel} (hp : s.Contains p) (c : CategoryDraft) (own : String → Bool)
    (around : Orientation → String → Bool) :
    (d.clip s).answer c own around p = d.answer c own around p := by
  unfold answer
  -- The search also passes by what has been left out, for that does not fire at the pixel.
  rw [candidates_clip, List.find?_map, List.find?_filter, Option.map_map]
  simp only [Function.comp_def, FormulaDraft.valueAt_clip, ← Bool.and_eq_decide,
    FormulaDraft.meets_and_fires_clip hp]

theorem groupsForTile_clip (id id' : RuleSetId) (picture : TileId) :
    ((d.clip s).linked id').groupsForTile picture = (d.linked id).groupsForTile picture := by
  refine GroupSet.ext_contains fun g => Bool.eq_iff_iff.mpr ?_
  simp only [RuleSet.contains_groupsForTile_iff]
  refine and_congr_left' ?_
  -- Every group keeps its place and its spans.
  simp only [RuleSet.group?, linked, linkedGroups, clip, List.map_map, List.getElem?_map]
  cases d.groups[g.index]? with
  | none => simp
  | some group => simp [GroupDraft.linked, Group.containsTile]

/-- On tiles of the size a category finds with the clipped rules what it finds with the rules. -/
theorem WellFormed.resolve_clip (h : d.WellFormed) {c : CategoryDraft} (hc : c ∈ d.categories)
    {grid : Grid} (hgrid : grid.TiledBy s) (id id' : RuleSetId) (lookback : Lookback)
    (old new : Point) :
    (Resolver.mk (d.linked id) lookback).resolve (c.linked d.linkedGroups id) old new grid =
      (Resolver.mk ((d.clip s).linked id') lookback).resolve
        (c.linked (d.clip s).linkedGroups id') old new grid := by
  have hc' : c ∈ (d.clip s).categories := hc
  refine Resolver.resolve_congr (r := ⟨d.linked id, lookback⟩)
    (s := ⟨(d.clip s).linked id', lookback⟩) (c := c.linked d.linkedGroups id)
    (d := c.linked (d.clip s).linkedGroups id') rfl rfl rfl rfl (iff_of_true rfl rfl) rfl rfl
    (fun _ => rfl) ?_ old new
  -- The new cell and the old one hold tiles of the size, so both are asked at one of its pixels.
  intro cell tile p htile
  obtain ⟨hwidth, hheight⟩ := hgrid htile
  rw [probe_linked h hc, probe_linked h.clip hc', groupNames_clip,
    answer_clip (TileSize.contains_pixelAt hwidth hheight p)]

/-- Whatever the point and the tile, the pixel under the point can be computed, and it lies in the
    tile. So clipped rules are accepted, show the same groups, and on tiles of the size find what
    the rules find. -/
theorem pixelAt_within_and_link_clip :
    (∀ (t : Tile) (p : Point), Strict.pixelAt t p = .ok (t.pixelAt p) ∧
      (0 ≤ (t.pixelAt p).x ∧ (t.pixelAt p).x ≤ min (max t.width.toNat 1) (2 ^ 31 - 1) - 1) ∧
        0 ≤ (t.pixelAt p).y ∧ (t.pixelAt p).y ≤ min (max t.height.toNat 1) (2 ^ 31 - 1) - 1) ∧
    ∀ {d : Draft} {id : RuleSetId} {r : RuleSet}, d.link id = .ok r →
      ∀ (s : TileSize) (id' : RuleSetId), ∃ r', (d.clip s).link id' = .ok r' ∧
        (∀ picture, r'.groupsForTile picture = r.groupsForTile picture) ∧
        ∀ name, Option.Rel
          (fun c c' => ∀ {grid : Grid}, grid.TiledBy s → ∀ lookback old new,
            (Resolver.mk r lookback).resolve c old new grid =
              (Resolver.mk r' lookback).resolve c' old new grid)
          (r.categoryNamed? name) (r'.categoryNamed? name) := by
  constructor
  · intro t p
    exact ⟨Strict.pixelAt_eq_ok t p, Tile.pixelCoordinate_within _ _,
      Tile.pixelCoordinate_within _ _⟩
  · intro d id r hr s id'
    obtain ⟨hd, rfl⟩ := link_eq_ok_iff.mp hr
    refine ⟨(d.clip s).linked id', link_eq_ok_iff.mpr ⟨hd.clip, rfl⟩, groupsForTile_clip id id', ?_⟩
    exact rel_categoryNamed?_linked rfl fun c hc _ hgrid lookback old new =>
      hd.resolve_clip hc hgrid id id' lookback old new

/-- A floor that reaches out of its tiles on three sides, and before it a ceiling that lies below
    them. The ceiling is left out and the floor cut down to one row, which answers for the feet as
    the wide floor did. -/
theorem pixelAt_within_and_link_clip_floor :
    let wide : Draft := {
      formulas := [.new "ceiling" ⟨.y, 0, 15, 16, 31⟩ ⟨.ofInt 0, .ofInt 0⟩,
        .new "floor" ⟨.y, -4, 40, 15, 99⟩ ⟨.ofInt 0, .ofInt 16⟩]
      groups := [⟨"top", [.single 0 1], ["ceiling", "floor"]⟩]
      categories := [⟨"feet", .y, 0, 0, ["top"]⟩] }
    let cut : Draft := {
      formulas := [.new "ceiling" ⟨.y, 0, 15, 16, 31⟩ ⟨.ofInt 0, .ofInt 0⟩,
        .new "floor" ⟨.y, 0, 15, 15, 15⟩ ⟨.ofInt 0, .ofInt 16⟩]
      groups := [⟨"top", [.single 0 1], ["floor"]⟩]
      categories := [⟨"feet", .y, 0, 0, ["top"]⟩] }
    let s : TileSize := ⟨16, 16, by decide, by decide, by decide, by decide⟩
    let r := wide.linked ⟨1⟩
    let r' := cut.linked ⟨2⟩
    let feet : Category := ⟨"feet", .y, 0, 0, [⟨0⟩], ⟨1⟩, [⟨0⟩, ⟨1⟩], ⟨1⟩⟩
    let grid := (Field.mk 16 16 16 16 (some ⟨0, 1⟩) [] r).toGrid
    let old : Point := ⟨.ofInt 8, .ofInt 10⟩
    let new : Point := ⟨.ofInt 8, .ofInt 31⟩
    wide.link ⟨1⟩ = .ok r ∧ wide.clip s = cut ∧ cut.link ⟨2⟩ = .ok r' ∧ grid.TiledBy s ∧
      r.categoryNamed? "feet" = some feet ∧
      ∃ feet', r'.categoryNamed? "feet" = some feet' ∧
        (Resolver.mk r .axisChange).resolve feet old new grid =
          ⟨none, some (.ofInt 32), ⟨some ⟨0, 1⟩, ⟨0, 1⟩, 16, 16⟩⟩ ∧
        (Resolver.mk r' .axisChange).resolve feet' old new grid =
          (Resolver.mk r .axisChange).resolve feet old new grid := by
  intro wide cut s r r' feet grid old new
  have hlink : wide.link ⟨1⟩ = .ok r := by
    refine link_eq_ok_iff.mpr ⟨?_, rfl⟩
    decide +kernel
  have hclip : wide.clip s = cut := by decide +kernel
  have hgrid : grid.TiledBy s := Field.tiledBy_toGrid rfl rfl
  have hfeet : r.categoryNamed? "feet" = some feet := by decide +kernel
  have hfound : (Resolver.mk r .axisChange).resolve feet old new grid =
      ⟨none, some (.ofInt 32), ⟨some ⟨0, 1⟩, ⟨0, 1⟩, 16, 16⟩⟩ := by decide +kernel
  obtain ⟨_, hlink', _, hcategories⟩ := pixelAt_within_and_link_clip.2 hlink s ⟨2⟩
  rw [hclip] at hlink'
  obtain ⟨_, rfl⟩ := link_eq_ok_iff.mp hlink'
  obtain ⟨feet', hfeet', hfinds⟩ := exists_of_rel_some (hcategories "feet") hfeet
  exact ⟨hlink, hclip, hlink', hgrid, hfeet, feet', hfeet', hfound,
    (hfinds hgrid .axisChange old new).symm⟩

end Draft
end Terrain
