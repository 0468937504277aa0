import Terrain.Proofs.Resolver.FirstMatch
import Terrain.Proofs.Session.Coherent

/-! ## Resolving without a net

The resolver reads lists by place, tests bits, clamps, divides and converts, and none of these has
an answer for all operands. Here it is carried out with operations that stop where they have none,
behind the same guards. It never stops, and it answers what the resolver answers, for all rule sets
that a session can make, whatever the grid and the positions are. -/

namespace Terrain

/-- What can stop an operation. -/
inductive Trap where
  /-- A list has no entry at a place. -/
  | place
  /-- A word is shifted by its width or more. -/
  | shift
  /-- The lower of two bounds is above the upper one. -/
  | bounds
  /-- A sum leaves the signed words. -/
  | overflow
  /-- A size to divide by is zero. -/
  | division
  /-- A number to be converted is no signed word. -/
  | conversion
  deriving DecidableEq, Inhabited

namespace Strict

/-! ### Operations -/

def entry {α : Type} (l : List α) (i : Nat) : Except Trap α :=
  match l[i]? with
  | some a => .ok a
  | none => .error .place

/-- Shifts the bit of a group to the lowest place and looks at it there. -/
def bit (s : GroupSet) (g : GroupId) : Except Trap Bool :=
  if g.index < 64 then .ok ((s.bits >>> g.index) &&& 1 == 1) else .error .shift

def clamp (lo hi n : Int) : Except Trap Int :=
  if lo ≤ hi then .ok (max lo (min hi n)) else .error .bounds

/-- The signed word that stands for `n`; without one, the given trap. -/
def fit (trap : Trap) (n : Int) : Except Trap Int32 :=
  if -2 ^ 31 ≤ n ∧ n < 2 ^ 31 then .ok (Int32.ofInt n) else .error trap

def word (n : Int) : Except Trap Int32 := fit .conversion n

def sum (w : Int32) (n : Int) : Except Trap Int32 := fit .overflow (w.toInt + n)

def quotient (v : Binary64) (size : UInt32) : Except Trap Binary64 :=
  if size = 0 then .error .division else .ok (v / Binary64.ofInt size.toNat)

/-! ### Cells and pixels -/

/-- The column or row of a coordinate. The guard comes before the conversion. -/
def coordinate (v : Binary64) (size : UInt32) : Except Trap (Option Int32) := do
  match (← quotient v size).floor? with
  | some n => if -2 ^ 31 ≤ n ∧ n ≤ 2 ^ 31 - 1 then return some (← word n) else return none
  | none => return none

/-- The cell that holds a point; without a column no row is sought. -/
def containing (p : Point) (width height : UInt32) : Except Trap (Option Cell) := do
  match ← coordinate p.x width with
  | some x =>
    match ← coordinate p.y height with
    | some y => return some ⟨x, y⟩
    | none => return none
  | none => return none

/-- One coordinate of a pixel: the extent is brought between one and the largest word, the last
    pixel is one less, and the distance is brought between zero and that. -/
def pixelCoordinate (distance : Binary64) (extent : UInt32) : Except Trap Int := do
  let extent ← word (← clamp 1 (2 ^ 31 - 1) extent.toNat)
  let last ← sum extent (-1)
  clamp 0 last.toInt (distance.truncateWithin (-2 ^ 31) (2 ^ 31 - 1))

def pixelAt (t : Tile) (p : Point) : Except Trap Pixel := do
  let d := p - t.origin
  let x ← pixelCoordinate d.x t.width
  let y ← pixelCoordinate d.y t.height
  return ⟨x, y⟩

/-- The neighbour in a direction; the sums are only made where they fit. -/
def neighbor (c : Cell) (o : Orientation) : Except Trap (Option Cell) := do
  if (int32? (c.x.toInt + o.offset.1)).isSome ∧ (int32? (c.y.toInt + o.offset.2)).isSome then
    return some ⟨← sum c.x o.offset.1, ← sum c.y o.offset.2⟩
  else return none

/-! ### The search -/

def groups (grid : Grid) (n : Neighborhood) (o : Orientation) :
    Except Trap (GroupSet × Neighborhood) := do
  match n.known.get o with
  | some found => return (found, n)
  | none =>
    let found := ((← neighbor n.center o).map grid.groupsAt).getD ∅
    return (found, { n with known := n.known.set o (some found) })

def blocksIn (grid : Grid) (c : Constraint) :
    Neighborhood → List Orientation → Except Trap (Bool × Neighborhood)
  | n, [] => .ok (false, n)
  | n, o :: rest =>
    if (c.blockers.get o).isEmpty then blocksIn grid c n rest
    else do
      let (found, n) ← groups grid n o
      if c.isBlocked o found then return (true, n) else blocksIn grid c n rest

def suppresses (grid : Grid) (n : Neighborhood) (f : Formula) :
    Except Trap (Bool × Neighborhood) :=
  if f.constraint.isUnconstrained then .ok (false, n)
  else blocksIn grid f.constraint n Orientation.all

/-- Tries the formulas of one group, up to the first that answers. -/
def scanGroup (r : RuleSet) (grid : Grid) (axis : Axis) (p : Pixel) :
    Neighborhood → List FormulaId → Except Trap (Option Binary64 × Neighborhood)
  | n, [] => .ok (none, n)
  | n, k :: rest => do
    let f ← entry r.formulas k.index
    if f.zone.axis = axis ∧ f.appliesAt p then
      let (suppressed, n) ← suppresses grid n f
      let value := f.valueAt p
      if !suppressed && value.isFinite then return (some value, n)
      else scanGroup r grid axis p n rest
    else scanGroup r grid axis p n rest

/-- Tries the groups of a category that the tile belongs to, up to the first formula that
    answers. -/
def scan (r : RuleSet) (grid : Grid) (own : GroupSet) (axis : Axis) (p : Pixel) :
    Neighborhood → List GroupId → Except Trap (Option Binary64)
  | _, [] => .ok none
  | n, g :: rest => do
    if ← bit own g then
      let group ← entry r.groups g.index
      match ← scanGroup r grid axis p n group.formulas with
      | (some value, _) => return some value
      | (none, n) => scan r grid own axis p n rest
    else scan r grid own axis p n rest

def probe (r : Resolver) (c : Category) (tile : Tile) (p : Point) (grid : Grid) :
    Except Trap (Option Contact) := do
  let pixel ← pixelAt tile p
  let own := grid.membership tile
  if own.intersects c.mask then
    let value ← scan r.rules grid own c.axis pixel (.around tile own) c.groups
    return value.map (.hit c.axis tile)
  else return none

/-- What the test point of a category finds. The guards against cells of no size and foreign
    categories come before everything else. -/
def resolve (r : Resolver) (c : Category) (old new : Point) (grid : Grid) :
    Except Trap Contact := do
  if grid.tileWidth = 0 ∨ grid.tileHeight = 0 ∨ c.rules ≠ r.rules.id then
    return .miss (.vacant ⟨0, 0⟩ grid.tileWidth grid.tileHeight)
  else
    let old := old + c.offset
    let new := new + c.offset
    match ← containing new grid.tileWidth grid.tileHeight with
    | none => return .miss (.vacant ⟨0, 0⟩ grid.tileWidth grid.tileHeight)
    | some cell =>
      match grid.tileAt cell with
      | none => return .miss (.vacant cell grid.tileWidth grid.tileHeight)
      | some tile =>
        match ← probe r c tile new grid with
        | some found => return found
        | none =>
          match ← containing old grid.tileWidth grid.tileHeight with
          | none => return .miss tile
          | some oldCell =>
            if r.lookback.applies c.axis oldCell cell then
              match grid.tileAt oldCell with
              | some previous => return (← probe r c previous new grid).getD (.miss previous)
              | none => return .miss tile
            else return .miss tile

/-- What the test points of several categories find. A place without a category finds nothing. -/
def resolveAll (r : Resolver) (ids : List CategoryId) (old new : Point) (grid : Grid) :
    Except Trap (List (CategoryId × Contact)) :=
  ids.mapM fun id => do
    match r.rules.category? id with
    | some c => return (id, ← resolve r c old new grid)
    | none => return (id, .miss (.vacant ⟨0, 0⟩ grid.tileWidth grid.tileHeight))

/-! ### No operation stops -/

theorem ok_bind {α β : Type} (a : α) (k : α → Except Trap β) : (Except.ok a >>= k) = k a := rfl

theorem entry_eq_ok {α : Type} {l : List α} {i : Nat} {a : α} (h : l[i]? = some a) :
    entry l i = .ok a := by
  unfold entry
  rw [h]

theorem bit_eq_ok {g : GroupId} (h : g.index < 64) (s : GroupSet) :
    bit s g = .ok (s.contains g) := by
  have hbit : ((s.bits >>> g.index) &&& 1 == 1) = s.bits.getLsbD g.index := by
    have hone : (s.bits >>> g.index) &&& 1#64 =
        BitVec.setWidth 64 (BitVec.ofBool ((s.bits >>> g.index).getLsbD 0)) :=
      BitVec.and_one_eq_setWidth_ofBool_getLsbD
    rw [BitVec.getLsbD_ushiftRight, Nat.add_zero] at hone
    refine Eq.trans (congrArg (· == 1#64) hone) ?_
    cases s.bits.getLsbD g.index with
    | true => rfl
    | false => rfl
  unfold bit
  rw [if_pos h, hbit]
  rfl

theorem clamp_eq_ok {lo hi : Int} (h : lo ≤ hi) (n : Int) :
    clamp lo hi n = .ok (max lo (min hi n)) := if_pos h

theorem fit_eq_ok {n : Int} {w : Int32} (h : int32? n = some w) (trap : Trap) :
    fit trap n = .ok w := by
  unfold int32? at h
  unfold fit
  split at h
  · rename_i hn
    cases h
    rw [if_pos hn]
  · cases h

theorem word_eq_ok {n : Int} {w : Int32} (h : int32? n = some w) : word n = .ok w :=
  fit_eq_ok h .conversion

theorem sum_eq_ok {v w : Int32} {n : Int} (h : int32? (w.toInt + n) = some v) :
    sum w n = .ok v := fit_eq_ok h .overflow

theorem quotient_eq_ok {size : UInt32} (h : size ≠ 0) (v : Binary64) :
    quotient v size = .ok (v / Binary64.ofInt size.toNat) := if_neg h

theorem coordinate_eq_ok {size : UInt32} (h : size ≠ 0) (v : Binary64) :
    coordinate v size = .ok (Cell.coordinate? v size) := by
  unfold coordinate Cell.coordinate?
  rw [quotient_eq_ok h, ok_bind]
  cases (v / Binary64.ofInt size.toNat).floor? with
  | none => rfl
  | some n =>
    rw [Option.bind_eq_bind, Option.bind_some]
    dsimp only
    -- The guard lets exactly the signed words through.
    split
    · rename_i hn
      have hfits : int32? n = some (Int32.ofInt n) := if_pos ⟨hn.1, by omega⟩
      rw [word_eq_ok hfits, hfits]
      rfl
    · rename_i hn
      have hfits : int32? n = none := if_neg fun h => hn ⟨h.1, by omega⟩
      rw [hfits]
      rfl

theorem containing_eq_ok {width height : UInt32} (hwidth : width ≠ 0) (hheight : height ≠ 0)
    (p : Point) : containing p width height = .ok (Cell.containing? p width height) := by
  unfold containing Cell.containing?
  rw [coordinate_eq_ok hwidth, coordinate_eq_ok hheight]
  cases Cell.coordinate? p.x width with
  | none => rfl
  | some x =>
    cases Cell.coordinate? p.y height with
    | none => rfl
    | some y => rfl

theorem pixelCoordinate_eq_ok (distance : Binary64) (extent : UInt32) :
    pixelCoordinate distance extent = .ok (Tile.pixelCoordinate distance extent) := by
  have hextent : max 1 (min (2 ^ 31 - 1) (extent.toNat : Int)) = Tile.lastPixel extent + 1 := by
    unfold Tile.lastPixel
    omega
  have hlast : 0 ≤ Tile.lastPixel extent ∧ Tile.lastPixel extent < 2 ^ 31 - 1 := by
    unfold Tile.lastPixel
    omega
  -- One more than the last pixel is still a word, and one less than that is the last pixel.
  obtain ⟨w, hw⟩ : ∃ w, int32? (Tile.lastPixel extent + 1) = some w :=
    ⟨_, if_pos ⟨by omega, by omega⟩⟩
  obtain ⟨v, hv⟩ : ∃ v, int32? (w.toInt + -1) = some v := by
    rw [int32?_eq_some_iff.mp hw]
    exact ⟨_, if_pos ⟨by omega, by omega⟩⟩
  have hvalue : v.toInt = Tile.lastPixel extent := by
    rw [int32?_eq_some_iff.mp hv, int32?_eq_some_iff.mp hw]
    omega
  unfold pixelCoordinate
  rw [clamp_eq_ok (by decide), ok_bind, hextent, word_eq_ok hw, ok_bind, sum_eq_ok hv, ok_bind,
    hvalue, clamp_eq_ok hlast.1]
  rfl

theorem pixelAt_eq_ok (t : Tile) (p : Point) : pixelAt t p = .ok (t.pixelAt p) := by
  unfold pixelAt
  dsimp only
  rw [pixelCoordinate_eq_ok, pixelCoordinate_eq_ok]
  rfl

theorem neighbor_eq_ok (c : Cell) (o : Orientation) : neighbor c o = .ok (c.neighbor? o) := by
  unfold neighbor Cell.neighbor?
  cases hx : int32? (c.x.toInt + o.offset.1) with
  | none => rfl
  | some x =>
    cases hy : int32? (c.y.toInt + o.offset.2) with
    | none => rfl
    | some y =>
      rw [sum_eq_ok hx, sum_eq_ok hy]
      rfl

theorem groups_eq_ok (grid : Grid) (n : Neighborhood) (o : Orientation) :
    groups grid n o = .ok (n.groups grid o) := by
  unfold groups Neighborhood.groups
  cases n.known.get o with
  | some found => rfl
  | none =>
    dsimp only
    rw [neighbor_eq_ok, ok_bind]
    rfl

theorem blocksIn_eq_ok (grid : Grid) (c : Constraint) (n : Neighborhood) (os : List Orientation) :
    blocksIn grid c n os = .ok (Neighborhood.blocksIn grid c n os) := by
  induction os generalizing n with
  | nil => rfl
  | cons o os ih =>
    rw [blocksIn, Neighborhood.blocksIn, groups_eq_ok]
    split
    · exact ih n
    · rw [ok_bind]
      dsimp only
      split
      · rfl
      · exact ih _

theorem suppresses_eq_ok (grid : Grid) (n : Neighborhood) (f : Formula) :
    suppresses grid n f = .ok (n.suppresses grid f) := by
  unfold suppresses Neighborhood.suppresses
  split
  · rfl
  · exact blocksIn_eq_ok grid f.constraint n Orientation.all

section

variable {r : RuleSet} {grid : Grid} {own : GroupSet} {n : Neighborhood}

/-- Formulas that the rule set has are all found, and the first that fires answers. -/
theorem scanGroup_answered (axis : Axis) (p : Pixel) (h : n.Consistent grid own)
    {ks : List FormulaId} (hks : ∀ k ∈ ks, k.index < r.formulas.length) :
    ∃ result, scanGroup r grid axis p n ks = .ok result ∧
      Neighborhood.Answered grid own n result
        (((ks.filterMap r.formula?).find?
          (·.fires axis p (Neighborhood.fresh grid n.center own))).map (·.valueAt p)) := by
  induction ks generalizing n with
  | nil => exact ⟨_, rfl, .pure h none⟩
  | cons k ks ih =>
    obtain ⟨hk, hks⟩ := List.forall_mem_cons.mp hks
    obtain ⟨f, hf⟩ : ∃ f, r.formula? k = some f := ⟨_, List.getElem?_eq_getElem hk⟩
    rw [scanGroup, entry_eq_ok hf, ok_bind, List.filterMap_cons_some hf, List.find?_cons]
    split
    · rename_i hcovers
      have ha := Neighborhood.suppresses_answered f h
      rw [Formula.fires_of_covers hcovers, ← ha.answer, suppresses_eq_ok, ok_bind]
      dsimp only
      split
      · rename_i hfires
        rw [hfires]
        exact ⟨_, rfl, rfl, ha.grows, ha.consistent⟩
      · rename_i hfires
        obtain ⟨result, hresult, hanswered⟩ := ih ha.consistent hks
        rw [Bool.eq_false_iff.mpr hfires, ← ha.grows.center_eq]
        exact ⟨result, hresult, ha.after hanswered⟩
    · rename_i hcovers
      rw [Formula.fires_of_not_covers hcovers]
      exact ih h hks

/-- Groups that the rule set has are all found, and of their formulas the first that fires
    answers. -/
theorem scan_eq_ok (hr : r.Closed) (axis : Axis) (p : Pixel) (h : n.Consistent grid own)
    {gs : List GroupId} (hgs : ∀ g ∈ gs, g.index < r.groups.length) :
    scan r grid own axis p n gs =
      .ok ((((gs.filter own.contains).flatMap r.formulasOf).find?
        (·.fires axis p (Neighborhood.fresh grid n.center own))).map (·.valueAt p)) := by
  induction gs generalizing n with
  | nil => rfl
  | cons g gs ih =>
    obtain ⟨hg, hgs⟩ := List.forall_mem_cons.mp hgs
    obtain ⟨group, hgroup⟩ : ∃ group, r.group? g = some group := ⟨_, List.getElem?_eq_getElem hg⟩
    have hmem : group ∈ r.groups := List.mem_of_getElem? hgroup
    have hformulas : r.formulasOf g = group.formulas.filterMap r.formula? := by
      rw [RuleSet.formulasOf, hgroup]
    rw [scan, bit_eq_ok (Nat.lt_of_lt_of_le hg hr.groups_le), ok_bind, List.filter_cons]
    split
    · obtain ⟨⟨value, m⟩, hresult, ha⟩ := scanGroup_answered axis p h (hr.formulas group hmem)
      rw [entry_eq_ok hgroup, ok_bind, hresult, ok_bind, List.flatMap_cons, hformulas,
        List.find?_append, Option.map_or, ← ha.answer]
      -- Without an answer from this group, the others come after it with what it has asked.
      cases value with
      | some value => rfl
      | none =>
        rw [Option.none_or, ← ha.grows.center_eq]
        exact ih ha.consistent hgs
    · exact ih h hgs

theorem probe_eq_ok {r : Resolver} (hr : r.rules.Closed) {c : Category}
    (hc : c.ClosedIn r.rules) (tile : Tile) (p : Point) (grid : Grid) :
    probe r c tile p grid = .ok (r.probe c tile p grid) := by
  rw [r.probe_eq_find? hc.mem_mask]
  unfold probe
  rw [pixelAt_eq_ok, ok_bind]
  dsimp only
  split
  · rw [scan_eq_ok hr _ _ (Neighborhood.around_consistent grid tile _) hc.lt_length, ok_bind,
      Option.map_map]
    rfl
  · rename_i hdisjoint
    rw [Resolver.candidates_eq_nil hc.mem_mask hdisjoint]
    rfl

/-- A category that carries the identity of the rules has to be one of theirs; nothing is asked of
    a foreign one. -/
theorem resolve_eq_ok {r : Resolver} (hr : r.rules.Closed) {c : Category}
    (hc : c.rules = r.rules.id → c.ClosedIn r.rules) (old new : Point) (grid : Grid) :
    resolve r c old new grid = .ok (r.resolve c old new grid) := by
  unfold resolve Resolver.resolve
  split
  · rfl
  · rename_i hguards
    have hwidth : grid.tileWidth ≠ 0 := fun h => hguards (.inl h)
    have hheight : grid.tileHeight ≠ 0 := fun h => hguards (.inr (.inl h))
    -- What has passed the guards belongs to the rules and lies on a grid with a size.
    have hc : c.ClosedIn r.rules := hc (Classical.not_not.mp fun h => hguards (.inr (.inr h)))
    dsimp only
    rw [containing_eq_ok hwidth hheight, ok_bind]
    unfold Resolver.resolveAt
    cases Cell.containing? (new + c.offset) grid.tileWidth grid.tileHeight with
    | none => rfl
    | some cell =>
      dsimp only
      cases grid.tileAt cell with
      | none => rfl
      | some tile =>
        dsimp only
        rw [probe_eq_ok hr hc, ok_bind]
        cases r.probe c tile (new + c.offset) grid with
        | some found => rfl
        | none =>
          dsimp only
          rw [containing_eq_ok hwidth hheight, ok_bind]
          unfold Resolver.previousTile?
          cases Cell.containing? (old + c.offset) grid.tileWidth grid.tileHeight with
          | none => rfl
          | some oldCell =>
            dsimp only
            rw [Option.bind_eq_bind, Option.bind_some]
            split
            · cases grid.tileAt oldCell with
              | none => rfl
              | some previous =>
                dsimp only
                rw [probe_eq_ok hr hc, ok_bind]
                rfl
            · rfl

theorem resolveAll_eq_ok {r : Resolver} (hr : r.rules.Closed) (ids : List CategoryId)
    (old new : Point) (grid : Grid) :
    resolveAll r ids old new grid = .ok (r.resolveAll ids old new grid) := by
  unfold resolveAll Resolver.resolveAll
  induction ids with
  | nil => rfl
  | cons id ids ih =>
    rw [List.mapM_cons, ih, List.map_cons]
    cases hid : r.rules.category? id with
    | none => rfl
    | some c =>
      have hc := hr.categories c (List.mem_of_getElem? hid)
      dsimp only
      rw [resolve_eq_ok hr fun _ => hc]
      rfl

end

/-- Whatever a session has done: a resolver with one of its rule sets never stops, for a category
    with any identity. One with the identity of the rules has to be made by the session. -/
theorem resolve_never_traps (steps : List Session.Step) {rules : RuleSet}
    (hrules : rules ∈ (Session.initial.after steps).ruleSets) (lookback : Lookback) {c : Category}
    (hc : c.rules = rules.id → ∃ q ∈ (Session.initial.after steps).ruleSets, c.IssuedBy q)
    (ids : List CategoryId) (old new : Point) (grid : Grid) :
    resolve ⟨rules, lookback⟩ c old new grid =
        .ok ((Resolver.mk rules lookback).resolve c old new grid) ∧
      resolveAll ⟨rules, lookback⟩ ids old new grid =
        .ok ((Resolver.mk rules lookback).resolveAll ids old new grid) := by
  have hcoherent := Session.initial_coherent.after steps
  have hclosed := hcoherent.closed rules hrules
  constructor
  · refine resolve_eq_ok hclosed (fun hid => ?_) old new grid
    -- Its rule set has the same identity, so it is the same rule set.
    obtain ⟨q, hq, hissued⟩ := hc hid
    have hqid := hissued.rules_eq (hcoherent.closed q hq)
    obtain rfl := hcoherent.eq_of_id_eq q hq rules hrules (hqid.symm.trans hid)
    exact hissued.closedIn hclosed
  · exact resolveAll_eq_ok hclosed ids old new grid

/-- A copied rule set, a category of it with everything overwritten that can be, a place without a
    category, and a grid whose tiles have no width, stand elsewhere and belong to all groups. -/
theorem resolve_never_traps_wild :
    let steps : List Session.Step :=
      [.command (.load "a" (.draft Draft.ledge)), .command (.clone "a" "b")]
    let rules := Draft.ledge.linked ⟨1⟩
    let hand : Category := ⟨"hand", .x, 2147483647, -1, [⟨0⟩], ⟨1⟩, [⟨0⟩, ⟨1⟩], ⟨1⟩⟩
    let wild : Grid :=
      ⟨fun _ => some ⟨none, ⟨2147483647, -2147483648⟩, 0, 4294967295⟩, fun _ => ⟨-1⟩, 1, 4294967295⟩
    let old : Point := ⟨.nan, .infinite true⟩
    let new : Point := ⟨.zero true, .ofInt 4294967295⟩
    rules ∈ (Session.initial.after steps).ruleSets ∧
      (hand.rules = rules.id → ∃ q ∈ (Session.initial.after steps).ruleSets, hand.IssuedBy q) ∧
      resolve ⟨rules, .anyChange⟩ hand old new wild =
        .ok ((Resolver.mk rules .anyChange).resolve hand old new wild) ∧
      resolveAll ⟨rules, .anyChange⟩ [⟨0⟩, ⟨9⟩] old new wild =
        .ok ((Resolver.mk rules .anyChange).resolveAll [⟨0⟩, ⟨9⟩] old new wild) := by
  intro steps rules hand wild old new
  have hrules : rules ∈ (Session.initial.after steps).ruleSets := by decide +kernel
  have hhand : hand.rules = rules.id →
      ∃ q ∈ (Session.initial.after steps).ruleSets, hand.IssuedBy q := by
    intro _
    refine ⟨rules, hrules, ⟨"feet", .y, 0, 0, [⟨0⟩], ⟨1⟩, [⟨0⟩, ⟨1⟩], ⟨1⟩⟩, ?_, rfl, rfl, rfl, rfl⟩
    decide +kernel
  refine ⟨hrules, hhand, ?_⟩
  exact resolve_never_traps steps hrules .anyChange hhand [⟨0⟩, ⟨9⟩] old new wild

end Strict
end Terrain
