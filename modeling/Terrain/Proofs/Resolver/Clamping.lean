import Terrain.Proofs.Resolver.Applying

/-! ## The answers of many test points put in one after the other

All the listed categories are resolved for the same move, and then their answers are put into one
point in the order of the list. Each answer writes the axis of its category alone, so that on each
axis the last category counts that finds anything there. -/

namespace Terrain

variable {axis : Axis}

/-! ### One answer -/

/-- Nothing is found on any axis but one. -/
def Contact.OnlyOn (axis : Axis) (found : Contact) : Prop :=
  ∀ other, other ≠ axis → found.on other = none

theorem Contact.miss_onlyOn (axis : Axis) (tile : Tile) : (miss tile).OnlyOn axis := by
  intro other _
  cases other <;> rfl

theorem Contact.hit_onlyOn (axis : Axis) (tile : Tile) (value : Binary64) :
    (hit axis tile value).OnlyOn axis := by
  intro other hother
  cases axis <;> cases other <;> first | rfl | exact absurd rfl hother

theorem Contact.OnlyOn.isHit_iff {found : Contact} (h : found.OnlyOn axis) :
    found.isHit = true ↔ ∃ v, found.on axis = some v := by
  rw [isHit, Bool.or_eq_true, ← Option.isSome_iff_exists]
  cases axis with
  | x =>
    have hy : found.y = none := h .y (by decide)
    simp [hy, on]
  | y =>
    have hx : found.x = none := h .x (by decide)
    simp [hx, on]

theorem Contact.apply_on (found : Contact) (p : Point) (axis : Axis) :
    (found.apply p).on axis = (found.on axis).getD (p.on axis) := by
  cases axis <;> rfl

theorem Point.ext_on {p q : Point} (h : ∀ axis, p.on axis = q.on axis) : p = q :=
  Point.ext (h .x) (h .y)

namespace Resolver

variable {r : Resolver} {c : Category} {ids ids' : List CategoryId} {old new : Point}
  {grid : Grid}

theorem probe_onlyOn {tile : Tile} {p : Point} {found : Contact}
    (h : r.probe c tile p grid = some found) : found.OnlyOn c.axis := by
  unfold probe at h
  dsimp only at h
  split at h
  · obtain ⟨value, _, rfl⟩ := Option.map_eq_some_iff.mp h
    exact Contact.hit_onlyOn c.axis tile value
  · cases h

theorem resolveAt_onlyOn (r : Resolver) (c : Category) (old new : Point) (grid : Grid) :
    (r.resolveAt c old new grid).OnlyOn c.axis := by
  unfold resolveAt
  split
  · exact Contact.miss_onlyOn _ _
  split
  · exact Contact.miss_onlyOn _ _
  split
  · rename_i hprobe
    exact probe_onlyOn hprobe
  split
  · rename_i previous _
    cases hprobe : r.probe c previous new grid with
    | none => exact Contact.miss_onlyOn _ previous
    | some found => exact probe_onlyOn hprobe
  · exact Contact.miss_onlyOn _ _

/-- A category finds a coordinate on its own axis or none. -/
theorem resolve_onlyOn (r : Resolver) (c : Category) (old new : Point) (grid : Grid) :
    (r.resolve c old new grid).OnlyOn c.axis := by
  unfold resolve
  split
  · exact Contact.miss_onlyOn _ _
  · exact r.resolveAt_onlyOn c _ _ grid

/-! ### All answers -/

/-- Where a point at `new` comes to stand when the answers of the listed categories are put in one
    after the other. -/
def clamp (r : Resolver) (ids : List CategoryId) (old new : Point) (grid : Grid) : Point :=
  (r.resolveAll ids old new grid).foldl (fun p answer => answer.2.apply p) new

/-- The category of a place tests the axis. -/
def tests (r : Resolver) (axis : Axis) (id : CategoryId) : Bool :=
  (r.rules.category? id).any fun c => c.axis = axis

/-- The category of a place is known and finds something by itself. -/
def hits (r : Resolver) (old new : Point) (grid : Grid) (id : CategoryId) : Bool :=
  (r.rules.category? id).any fun c => (r.resolve c old new grid).isHit

/-- What the category of a place finds on an axis by itself. -/
def found? (r : Resolver) (old new : Point) (grid : Grid) (axis : Axis) (id : CategoryId) :
    Option Binary64 :=
  (r.rules.category? id).bind fun c => (r.resolve c old new grid).on axis

theorem found?_eq_some_iff {id : CategoryId} {v : Binary64} :
    r.found? old new grid axis id = some v ↔
      ∃ c, r.rules.category? id = some c ∧ c.axis = axis ∧
        (r.resolve c old new grid).on axis = some v := by
  rw [found?, Option.bind_eq_some_iff]
  constructor
  · rintro ⟨c, hc, hv⟩
    refine ⟨c, hc, Classical.byContradiction fun hne => ?_, hv⟩
    rw [r.resolve_onlyOn c old new grid axis (Ne.symm hne)] at hv
    cases hv
  · rintro ⟨c, hc, _, hv⟩
    exact ⟨c, hc, hv⟩

theorem exists_found?_iff {id : CategoryId} :
    (∃ v, r.found? old new grid axis id = some v) ↔
      r.tests axis id = true ∧ r.hits old new grid id = true := by
  simp only [found?_eq_some_iff, tests, hits, Option.any_eq_true, decide_eq_true_eq]
  constructor
  · rintro ⟨v, c, hc, rfl, hv⟩
    exact ⟨⟨c, hc, rfl⟩, c, hc, (r.resolve_onlyOn c old new grid).isHit_iff.mpr ⟨v, hv⟩⟩
  · rintro ⟨⟨c, hc, rfl⟩, d, hd, hhit⟩
    obtain rfl : c = d := Option.some.inj (hc.symm.trans hd)
    obtain ⟨v, hv⟩ := (r.resolve_onlyOn c old new grid).isHit_iff.mp hhit
    exact ⟨v, c, hc, rfl, hv⟩

theorem found?_eq_none {id : CategoryId}
    (h : ¬(r.tests axis id = true ∧ r.hits old new grid id = true)) :
    r.found? old new grid axis id = none :=
  Option.eq_none_iff_forall_ne_some.mpr fun v hv => h (exists_found?_iff.mp ⟨v, hv⟩)

/-! ### The last one counts -/

/-- By induction on the answers, for any start: a later coordinate replaces an earlier one. -/
theorem foldl_apply_on (answers : List (CategoryId × Contact)) (p : Point) (axis : Axis) :
    (answers.foldl (fun p answer => answer.2.apply p) p).on axis =
      (answers.filterMap fun answer => answer.2.on axis).getLast?.getD (p.on axis) := by
  induction answers generalizing p with
  | nil => rfl
  | cons answer answers ih =>
    rw [List.foldl_cons, ih, Contact.apply_on, List.filterMap_cons]
    cases answer.2.on axis with
    | none => rfl
    | some v => rw [List.getLast?_cons, Option.getD_some, Option.getD_some]

theorem filterMap_resolveAll (r : Resolver) (ids : List CategoryId) (old new : Point) (grid : Grid)
    (axis : Axis) :
    ((r.resolveAll ids old new grid).filterMap fun answer => answer.2.on axis) =
      ids.filterMap (r.found? old new grid axis) := by
  unfold resolveAll
  rw [List.filterMap_map]
  refine List.filterMap_congr fun id _ => ?_
  dsimp only [Function.comp, found?]
  cases r.rules.category? id with
  | none => cases axis <;> rfl
  | some c => rfl

theorem clamp_on (r : Resolver) (ids : List CategoryId) (old new : Point) (grid : Grid)
    (axis : Axis) :
    (r.clamp ids old new grid).on axis =
      (ids.filterMap (r.found? old new grid axis)).getLast?.getD (new.on axis) := by
  rw [clamp, foldl_apply_on, filterMap_resolveAll]

/-- The coordinate of the last listed category of an axis that finds something, or the coordinate of
    `new` if there is none. -/
inductive LastHit (r : Resolver) (old new : Point) (grid : Grid) (axis : Axis) :
    List CategoryId → Binary64 → Prop
  | hit {before after : List CategoryId} {id : CategoryId} {c : Category} {v : Binary64}
      (hc : r.rules.category? id = some c) (haxis : c.axis = axis)
      (hv : (r.resolve c old new grid).on axis = some v)
      (hlater : ∀ later ∈ after,
        ¬(r.tests axis later = true ∧ r.hits old new grid later = true)) :
      LastHit r old new grid axis (before ++ id :: after) v
  | missed {ids : List CategoryId}
      (hmissed : ∀ id ∈ ids, ¬(r.tests axis id = true ∧ r.hits old new grid id = true)) :
      LastHit r old new grid axis ids (new.on axis)

theorem lastHit_clamp (r : Resolver) (ids : List CategoryId) (old new : Point) (grid : Grid)
    (axis : Axis) : r.LastHit old new grid axis ids ((r.clamp ids old new grid).on axis) := by
  rw [clamp_on]
  cases hlast : (ids.filterMap (r.found? old new grid axis)).getLast? with
  | none =>
    refine .missed fun id hid hhit => ?_
    obtain ⟨v, hv⟩ := exists_found?_iff.mpr hhit
    have hmem := List.mem_filterMap.mpr ⟨id, hid, hv⟩
    rw [List.getLast?_eq_none_iff.mp hlast] at hmem
    cases hmem
  | some v =>
    obtain ⟨vs, hvs⟩ := List.getLast?_eq_some_iff.mp hlast
    obtain ⟨before, rest, rfl, _, hrest⟩ := List.filterMap_eq_append_iff.mp hvs
    obtain ⟨skipped, id, after, rfl, _, hid, hafter⟩ := List.filterMap_eq_cons_iff.mp hrest
    obtain ⟨c, hc, haxis, hv⟩ := found?_eq_some_iff.mp hid
    rw [← List.append_assoc]
    refine .hit hc haxis hv fun later hlater hhit => ?_
    obtain ⟨w, hw⟩ := exists_found?_iff.mpr hhit
    rw [List.filterMap_eq_nil_iff.mp hafter later hlater] at hw
    cases hw

/-- Two lists with the same hits on each axis in the same order. -/
theorem clamp_congr
    (h : ∀ axis, (ids'.filter fun id => r.tests axis id && r.hits old new grid id) =
      ids.filter fun id => r.tests axis id && r.hits old new grid id) :
    r.clamp ids' old new grid = r.clamp ids old new grid := by
  have hfound : ∀ (axis : Axis) (ids : List CategoryId),
      ids.filterMap (r.found? old new grid axis) =
        (ids.filter fun id => r.tests axis id && r.hits old new grid id).filterMap
          (r.found? old new grid axis) := by
    intro axis ids
    rw [List.filterMap_filter]
    refine List.filterMap_congr fun id _ => ?_
    split
    · rfl
    · rename_i hmissed
      exact found?_eq_none fun hhit => hmissed (Bool.and_eq_true_iff.mpr hhit)
  refine Point.ext_on fun axis => ?_
  rw [clamp_on, clamp_on, hfound, h axis, ← hfound]

/-- On each axis the point comes to stand where the last category says that finds something there.
    So neither the order of categories of different axes counts, nor a category that is unknown or
    finds nothing. -/
theorem clamp_last_hit (r : Resolver) (ids : List CategoryId) (old new : Point) (grid : Grid) :
    (∀ axis, r.LastHit old new grid axis ids ((r.clamp ids old new grid).on axis)) ∧
    (∀ ids' : List CategoryId,
      (∀ axis, ids'.filter (r.tests axis) = ids.filter (r.tests axis)) →
        r.clamp ids' old new grid = r.clamp ids old new grid) ∧
    ∀ ids' : List CategoryId, ids'.filter (r.hits old new grid) = ids.filter (r.hits old new grid) →
      r.clamp ids' old new grid = r.clamp ids old new grid := by
  refine ⟨r.lastHit_clamp ids old new grid, fun ids' htests => ?_, fun ids' hhits => ?_⟩
  · refine clamp_congr fun axis => ?_
    simp only [Bool.and_comm (r.tests axis _), ← List.filter_filter, htests]
  · refine clamp_congr fun axis => ?_
    simp only [← List.filter_filter, hhits]

/-- A body in a field of corners is stopped on both axes. Its two test points may be asked in either
    order, with one that nobody knows between them. -/
theorem clamp_last_hit_corner :
    let floor : Formula := ⟨"floor", ⟨.y, 0, 15, 0, 15⟩, ⟨.ofInt 0, .ofInt 0⟩, .none⟩
    let wall : Formula := ⟨"wall", ⟨.x, 0, 15, 0, 15⟩, ⟨.ofInt 0, .ofInt 16⟩, .none⟩
    let feet : Category := ⟨"feet", .y, 0, 0, [⟨0⟩], ⟨1⟩, [⟨0⟩, ⟨1⟩], ⟨1⟩⟩
    let side : Category := ⟨"side", .x, 0, 0, [⟨0⟩], ⟨1⟩, [⟨0⟩, ⟨1⟩], ⟨1⟩⟩
    let rules : RuleSet :=
      ⟨⟨1⟩, [floor, wall], [⟨"corner", [.single 0 0], [⟨0⟩, ⟨1⟩]⟩], [feet, side]⟩
    let grid := (Field.mk 16 16 16 16 (some ⟨0, 0⟩) [] rules).toGrid
    let r := mk rules .never
    let p : Point := ⟨.ofInt 40, .ofInt 63⟩
    (∀ axis, [⟨1⟩, ⟨7⟩, ⟨0⟩].filter (r.tests axis) = [⟨0⟩, ⟨1⟩].filter (r.tests axis)) ∧
      r.clamp [⟨1⟩, ⟨7⟩, ⟨0⟩] p p grid = r.clamp [⟨0⟩, ⟨1⟩] p p grid ∧
      [⟨0⟩, ⟨7⟩, ⟨1⟩].filter (r.hits p p grid) = [⟨0⟩, ⟨1⟩].filter (r.hits p p grid) ∧
      r.clamp [⟨0⟩, ⟨7⟩, ⟨1⟩] p p grid = r.clamp [⟨0⟩, ⟨1⟩] p p grid ∧
      r.clamp [⟨0⟩, ⟨1⟩] p p grid = ⟨.ofInt 48, .ofInt 48⟩ := by
  intro floor wall feet side rules grid r p
  have htests : ∀ axis,
      [⟨1⟩, ⟨7⟩, ⟨0⟩].filter (r.tests axis) = [⟨0⟩, ⟨1⟩].filter (r.tests axis) := by
    intro axis
    cases axis <;> decide +kernel
  have hhits : [⟨0⟩, ⟨7⟩, ⟨1⟩].filter (r.hits p p grid) = [⟨0⟩, ⟨1⟩].filter (r.hits p p grid) := by
    decide +kernel
  obtain ⟨_, hreorder, hinsert⟩ := clamp_last_hit r [⟨0⟩, ⟨1⟩] p p grid
  exact ⟨htests, hreorder _ htests, hhits, hinsert _ hhits, by decide +kernel⟩

end Resolver
end Terrain
