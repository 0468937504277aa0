import Terrain.Grid.Field
import Terrain.Proofs.Binary64.Floor
import Terrain.Proofs.Resolver.FirstMatch
import Terrain.Proofs.RuleSet.Linking

/-! ## Resolving in the integers

The resolver once more, with integers in the place of doubles: nothing is rounded, nothing is
infinite, and a zero has no sign. Whole points and whole lines of moderate size are resolved alike
by both. -/

namespace Terrain

/-! ### The exact resolver -/

namespace Exact

/-- A point, or a displacement, with integer coordinates. -/
@[ext] structure Point where
  x : Int
  y : Int
  deriving DecidableEq, Inhabited

instance : Add Point := ⟨fun p q => ⟨p.x + q.x, p.y + q.y⟩⟩

/-- The place of the test point on the body. -/
def offset (c : Category) : Point := ⟨c.offsetX.toInt, c.offsetY.toInt⟩

/-- The cell that holds a point, if its address fits. The quotients are those toward negative
    infinity, as sizes are positive. -/
def containing? (p : Point) (width height : UInt32) : Option Cell := do
  let x ← int32? (p.x / width.toNat)
  let y ← int32? (p.y / height.toNat)
  return ⟨x, y⟩

/-- The pixel of a tile that is under a point, or the nearest one if the point is outside. -/
def pixelAt (t : Tile) (p : Point) : Pixel where
  x := max 0 (min ((t.width.toNat : Int) - 1) (p.x - t.cell.x.toInt * t.width.toNat))
  y := max 0 (min ((t.height.toNat : Int) - 1) (p.y - t.cell.y.toInt * t.height.toNat))

/-- What the line of a formula is evaluated at. -/
def inputAt (f : Formula) (p : Pixel) : Int :=
  match f.zone.axis with
  | .x => p.y
  | .y => p.x

/-- The coordinate that blocks at a pixel, counted from the corner of the tile. -/
def valueAt (f : Formula) (p : Pixel) : Int :=
  f.line.slope.toInt * inputAt f p + f.line.intercept.toInt

/-- What a test point ran into. -/
structure Contact where
  x : Option Int
  y : Option Int
  tile : Tile
  deriving DecidableEq, Inhabited

namespace Contact

/-- No formula matched. -/
def miss (tile : Tile) : Contact := ⟨none, none, tile⟩

/-- A formula matched: `value` is counted from the corner of the tile. -/
def hit (axis : Axis) (tile : Tile) (value : Int) : Contact :=
  match axis with
  | .x => ⟨some (tile.cell.x.toInt * tile.width.toNat + value), none, tile⟩
  | .y => ⟨none, some (tile.cell.y.toInt * tile.height.toNat + value), tile⟩

end Contact

/-- The value of the first formula that writes the axis, covers the pixel and is not switched off
    by a neighbour. -/
def scan (grid : Grid) (axis : Axis) (p : Pixel) : Neighborhood → List Formula → Option Int
  | _, [] => none
  | n, f :: rest =>
    if f.zone.axis = axis ∧ f.appliesAt p then
      let (suppressed, n) := n.suppresses grid f
      if suppressed then scan grid axis p n rest else some (valueAt f p)
    else scan grid axis p n rest

/-- What the first matching formula of a tile says for the pixel under `p`. -/
def probe (r : Resolver) (c : Category) (tile : Tile) (p : Point) (grid : Grid) :
    Option Contact :=
  let own := grid.membership tile
  if own.intersects c.mask then
    (scan grid c.axis (pixelAt tile p) (.around tile own) (r.candidates c own)).map
      (.hit c.axis tile)
  else none

/-- The tile to look back into, if the policy asks for it and there is one. -/
def previousTile? (r : Resolver) (c : Category) (old : Point) (cell : Cell) (grid : Grid) :
    Option Tile := do
  let oldCell ← containing? old grid.tileWidth grid.tileHeight
  if r.lookback.applies c.axis oldCell cell then grid.tileAt oldCell else none

/-- What a test point finds that has moved from `old` to `new`. -/
def resolveAt (r : Resolver) (c : Category) (old new : Point) (grid : Grid) : Contact :=
  match containing? new grid.tileWidth grid.tileHeight with
  | none => .miss (.vacant ⟨0, 0⟩ grid.tileWidth grid.tileHeight)
  | some cell =>
    match grid.tileAt cell with
    | none => .miss (.vacant cell grid.tileWidth grid.tileHeight)
    | some tile =>
      match probe r c tile new grid with
      | some found => found
      | none =>
        match previousTile? r c old cell grid with
        | some previous => (probe r c previous new grid).getD (.miss previous)
        | none => .miss tile

/-- What the test point of a category finds when the body has moved from `old` to `new`. -/
def resolve (r : Resolver) (c : Category) (old new : Point) (grid : Grid) : Contact :=
  if grid.tileWidth = 0 ∨ grid.tileHeight = 0 ∨ c.rules ≠ r.rules.id then
    .miss (.vacant ⟨0, 0⟩ grid.tileWidth grid.tileHeight)
  else resolveAt r c (old + offset c) (new + offset c) grid

end Exact

/-! ### Whole scenes -/

/-- A line with integer coefficients, small enough for its values in a tile. -/
structure Line.Whole (l : Line) : Prop where
  slope : ∃ a : Int, l.slope.IsInt a ∧ a.natAbs ≤ 2 ^ 20
  intercept : ∃ b : Int, l.intercept.IsInt b ∧ b.natAbs ≤ 2 ^ 31

theorem Line.Whole.of_ofInt {a b : Int} (ha : a.natAbs ≤ 2 ^ 20) (hb : b.natAbs ≤ 2 ^ 31) :
    Line.Whole ⟨.ofInt a, .ofInt b⟩ :=
  ⟨⟨a, Binary64.isInt_ofInt (by omega), ha⟩, ⟨b, Binary64.isInt_ofInt (by omega), hb⟩⟩

/-- The cells have a size that a signed word can count, and every tile carries the address that
    it was asked for and the size of the cells. -/
structure Grid.Uniform (grid : Grid) : Prop where
  width_pos : 0 < grid.tileWidth.toNat
  width_lt : grid.tileWidth.toNat < 2 ^ 31
  height_pos : 0 < grid.tileHeight.toNat
  height_lt : grid.tileHeight.toNat < 2 ^ 31
  cell_eq : ∀ {cell tile}, grid.tileAt cell = some tile → tile.cell = cell
  width_eq : ∀ {cell tile}, grid.tileAt cell = some tile → tile.width = grid.tileWidth
  height_eq : ∀ {cell tile}, grid.tileAt cell = some tile → tile.height = grid.tileHeight

/-- The tile is in reach: it has a size, and its corner is near enough for exact distances. -/
structure Tile.InReach (t : Tile) : Prop where
  width_pos : 0 < t.width.toNat
  width_lt : t.width.toNat < 2 ^ 31
  height_pos : 0 < t.height.toNat
  height_lt : t.height.toNat < 2 ^ 31
  x : (t.cell.x.toInt * t.width.toNat).natAbs ≤ 2 ^ 51
  y : (t.cell.y.toInt * t.height.toNat).natAbs ≤ 2 ^ 51

/-- The point has the integer coordinates `q`. -/
structure Point.IsInt (p : Point) (q : Exact.Point) : Prop where
  x : p.x.IsInt q.x
  y : p.y.IsInt q.y

/-- No coordinate is larger than `bound` in magnitude. -/
def Exact.Point.Within (q : Exact.Point) (bound : Nat) : Prop :=
  q.x.natAbs ≤ bound ∧ q.y.natAbs ≤ bound

theorem Exact.Point.Within.mono {q : Exact.Point} {m n : Nat} (h : q.Within m) (hmn : m ≤ n) :
    q.Within n :=
  ⟨h.1.trans hmn, h.2.trans hmn⟩

/-- Two answers are the same: both name the same tile, and a coordinate of the one is the double
    that is exactly the coordinate of the other. -/
structure Contact.IsExact (found : Contact) (exact : Exact.Contact) : Prop where
  x : Option.Rel (fun v n => v = .ofInt n ∧ v.IsInt n) found.x exact.x
  y : Option.Rel (fun v n => v = .ofInt n ∧ v.IsInt n) found.y exact.y
  tile : found.tile = exact.tile

theorem Contact.IsExact.miss (tile : Tile) : (Contact.miss tile).IsExact (.miss tile) :=
  ⟨.none, .none, rfl⟩

/-! ### Cells and pixels -/

namespace Exact

/-- No size of a word reaches the bound of whole doubles. -/
theorem isInt_size (size : UInt32) : (Binary64.ofInt size.toNat).IsInt size.toNat := by
  have := size.toNat_lt
  exact Binary64.isInt_ofInt (by omega)

theorem isInt_coordinate (k : Int32) : (Binary64.ofInt k.toInt).IsInt k.toInt :=
  Binary64.isInt_ofInt ((int32_natAbs_le k).trans (by norm_num))

theorem coordinate?_eq {v : Binary64} {n : Int} {size : UInt32} (hv : v.IsInt n)
    (hn : n.natAbs ≤ 2 ^ 51) (hpos : 0 < size.toNat) (hlt : size.toNat < 2 ^ 31) :
    Cell.coordinate? v size = int32? (n / size.toNat) := by
  unfold Cell.coordinate?
  rw [hv.floor?_div (isInt_size size) hn (by omega) (by omega)]
  rfl

theorem containing?_eq {grid : Grid} (hgrid : grid.Uniform) {p : Terrain.Point} {q : Point}
    (hp : p.IsInt q) (hq : q.Within (2 ^ 51)) :
    Cell.containing? p grid.tileWidth grid.tileHeight =
      containing? q grid.tileWidth grid.tileHeight := by
  unfold Cell.containing? containing?
  rw [coordinate?_eq hp.x hq.1 hgrid.width_pos hgrid.width_lt,
    coordinate?_eq hp.y hq.2 hgrid.height_pos hgrid.height_lt]

theorem containing?_eq_some_iff {p : Point} {width height : UInt32} {cell : Cell} :
    containing? p width height = some cell ↔
      cell.x.toInt = p.x / width.toNat ∧ cell.y.toInt = p.y / height.toNat := by
  unfold containing?
  refine Option.bind_eq_some_iff.trans ?_
  constructor
  · intro ⟨x, hx, h⟩
    obtain ⟨y, hy, h⟩ := Option.bind_eq_some_iff.mp h
    cases h
    exact ⟨int32?_eq_some_iff.mp hx, int32?_eq_some_iff.mp hy⟩
  · intro ⟨hx, hy⟩
    refine ⟨cell.x, int32?_eq_some_iff.mpr hx, ?_⟩
    exact Option.bind_eq_some_iff.mpr ⟨cell.y, int32?_eq_some_iff.mpr hy, rfl⟩

/-- The corner of a cell is at most one size away from any point in it. -/
theorem natAbs_corner_le {k n : Int} {w : Nat} (hw : 0 < w) (hk : k = n / w) :
    (k * w).natAbs ≤ n.natAbs + w := by
  have hsplit : w * (n / w) + n % w = n := Int.mul_ediv_add_emod n w
  have hnonneg := Int.emod_nonneg n (by omega : (w : Int) ≠ 0)
  have hlt := Int.emod_lt_of_pos n (by omega : 0 < (w : Int))
  rw [hk, mul_comm]
  omega

/-- In its own cell the distance of a point from the corner is what the division leaves over. -/
theorem sub_corner_eq {k n : Int} {w : Nat} (hk : k = n / w) : n - k * w = n % w := by
  rw [hk, Int.emod_def, mul_comm]

theorem clamp_emod (n : Int) {w : Nat} (hw : 0 < w) :
    max 0 (min ((w : Int) - 1) (n % w)) = n % w := by
  have hnonneg := Int.emod_nonneg n (by omega : (w : Int) ≠ 0)
  have hlt := Int.emod_lt_of_pos n (by omega : 0 < (w : Int))
  omega

/-- A tile that a move is looked up in is in reach, on both ends of the move. -/
theorem inReach {grid : Grid} (hgrid : grid.Uniform) {p : Point} (hp : p.Within (2 ^ 50 + 2 ^ 31))
    {cell : Cell} {tile : Tile}
    (hcell : containing? p grid.tileWidth grid.tileHeight = some cell)
    (htile : grid.tileAt cell = some tile) : tile.InReach := by
  have hwidth := hgrid.width_lt
  have hheight := hgrid.height_lt
  have hpx := hp.1
  have hpy := hp.2
  obtain ⟨hx, hy⟩ := containing?_eq_some_iff.mp hcell
  have hcornerX := natAbs_corner_le hgrid.width_pos hx
  have hcornerY := natAbs_corner_le hgrid.height_pos hy
  constructor
  · rw [hgrid.width_eq htile]
    exact hgrid.width_pos
  · rw [hgrid.width_eq htile]
    exact hwidth
  · rw [hgrid.height_eq htile]
    exact hgrid.height_pos
  · rw [hgrid.height_eq htile]
    exact hheight
  · rw [hgrid.cell_eq htile, hgrid.width_eq htile]
    omega
  · rw [hgrid.cell_eq htile, hgrid.height_eq htile]
    omega

/-- One coordinate of the corner of a tile, as the double that it is computed as. -/
theorem corner_eq (k : Int32) {size : UInt32} (hpos : 0 < size.toNat) :
    Binary64.ofInt k.toInt * Binary64.ofInt size.toNat = Binary64.ofInt (k.toInt * size.toNat) := by
  have := int32_natAbs_le k
  have := size.toNat_lt
  exact Binary64.IsInt.ofInt_mul (by omega) (by omega) (by omega)

theorem pixelCoordinate_eq {v : Binary64} {d : Int} {size : UInt32} (hv : v.IsInt d)
    (hpos : 0 < size.toNat) (hlt : size.toNat < 2 ^ 31) :
    Tile.pixelCoordinate v size = max 0 (min ((size.toNat : Int) - 1) d) := by
  unfold Tile.pixelCoordinate Tile.lastPixel
  rw [hv.truncateWithin]
  omega

theorem distance_isInt {v : Binary64} {n : Int} (hv : v.IsInt n) (hn : n.natAbs ≤ 2 ^ 51)
    (k : Int32) {size : UInt32} (hpos : 0 < size.toNat)
    (hcorner : (k.toInt * size.toNat).natAbs ≤ 2 ^ 51) :
    (v - Binary64.ofInt k.toInt * Binary64.ofInt size.toNat).IsInt (n - k.toInt * size.toNat) := by
  rw [corner_eq k hpos]
  exact hv.sub (Binary64.isInt_ofInt (by omega)) (by omega)

theorem pixelAt_eq {t : Tile} (ht : t.InReach) {p : Terrain.Point} {q : Point} (hp : p.IsInt q)
    (hq : q.Within (2 ^ 51)) : t.pixelAt p = pixelAt t q := by
  have hx := distance_isInt hp.x hq.1 t.cell.x ht.width_pos ht.x
  have hy := distance_isInt hp.y hq.2 t.cell.y ht.height_pos ht.y
  exact congrArg₂ Pixel.mk (pixelCoordinate_eq hx ht.width_pos ht.width_lt)
    (pixelCoordinate_eq hy ht.height_pos ht.height_lt)

/-- A point in the cell of a tile is over a pixel of the tile, and nothing is moved. -/
theorem pixelAt_inside {grid : Grid} (hgrid : grid.Uniform) {q : Point} {cell : Cell} {tile : Tile}
    (hcell : containing? q grid.tileWidth grid.tileHeight = some cell)
    (htile : grid.tileAt cell = some tile) :
    pixelAt tile q = ⟨q.x % grid.tileWidth.toNat, q.y % grid.tileHeight.toNat⟩ := by
  obtain ⟨hx, hy⟩ := containing?_eq_some_iff.mp hcell
  unfold pixelAt
  rw [hgrid.cell_eq htile, hgrid.width_eq htile, hgrid.height_eq htile, sub_corner_eq hx,
    sub_corner_eq hy, clamp_emod _ hgrid.width_pos, clamp_emod _ hgrid.height_pos]

/-! ### Values -/

theorem inputAt_isInt (f : Formula) {t : Tile} (ht : t.InReach) (q : Point) :
    (f.inputAt (pixelAt t q)).IsInt (inputAt f (pixelAt t q)) ∧
      (inputAt f (pixelAt t q)).natAbs < 2 ^ 31 := by
  have hwidth := ht.width_lt
  have hheight := ht.height_lt
  have hx : (pixelAt t q).x.natAbs < 2 ^ 31 := by
    dsimp only [pixelAt]
    omega
  have hy : (pixelAt t q).y.natAbs < 2 ^ 31 := by
    dsimp only [pixelAt]
    omega
  unfold Formula.inputAt inputAt
  cases f.zone.axis with
  | x => exact ⟨Binary64.isInt_ofInt (by omega), hy⟩
  | y => exact ⟨Binary64.isInt_ofInt (by omega), hx⟩

theorem valueAt_isInt {f : Formula} (hf : f.line.Whole) {t : Tile} (ht : t.InReach) (q : Point) :
    (f.valueAt (pixelAt t q)).IsInt (valueAt f (pixelAt t q)) ∧
      (valueAt f (pixelAt t q)).natAbs ≤ 2 ^ 51 + 2 ^ 31 := by
  obtain ⟨a, ha, haBound⟩ := hf.slope
  obtain ⟨b, hb, hbBound⟩ := hf.intercept
  obtain ⟨hinput, hinputBound⟩ := inputAt_isInt f ht q
  unfold Formula.valueAt Line.eval valueAt
  rw [ha.toInt, hb.toInt]
  generalize inputAt f (pixelAt t q) = n at *
  have hproduct : (a * n).natAbs ≤ 2 ^ 51 := by
    rw [Int.natAbs_mul]
    exact (Nat.mul_le_mul haBound hinputBound.le).trans (by norm_num)
  exact ⟨(ha.mul hinput (by omega)).add hb (by omega), by omega⟩

theorem hit_isExact (axis : Axis) {t : Tile} (ht : t.InReach) {v : Binary64} {n : Int}
    (hv : v.IsInt n) (hn : n.natAbs ≤ 2 ^ 51 + 2 ^ 31) :
    (Terrain.Contact.hit axis t v).IsExact (.hit axis t n) := by
  have hx := ht.x
  have hy := ht.y
  cases axis with
  | x =>
    refine ⟨.some ?_, .none, rfl⟩
    dsimp only [Tile.origin]
    rw [corner_eq t.cell.x ht.width_pos, Binary64.IsInt.ofInt_add (by omega) hv]
    exact ⟨rfl, Binary64.isInt_ofInt (by omega)⟩
  | y =>
    refine ⟨.none, .some ?_, rfl⟩
    dsimp only [Tile.origin]
    rw [corner_eq t.cell.y ht.height_pos, Binary64.IsInt.ofInt_add (by omega) hv]
    exact ⟨rfl, Binary64.isInt_ofInt (by omega)⟩

/-! ### The search -/

theorem scan_isExact (grid : Grid) (axis : Axis) {t : Tile} (ht : t.InReach) (q : Point)
    (n : Neighborhood) {fs : List Formula} (hfs : ∀ f ∈ fs, f.line.Whole) :
    Option.Rel (fun v k => v.IsInt k ∧ k.natAbs ≤ 2 ^ 51 + 2 ^ 31)
      (Resolver.scan grid axis (pixelAt t q) n fs) (scan grid axis (pixelAt t q) n fs) := by
  induction fs generalizing n with
  | nil => exact .none
  | cons f fs ih =>
    obtain ⟨hf, hrest⟩ := List.forall_mem_cons.mp hfs
    unfold Resolver.scan scan
    split
    · have hvalue := valueAt_isInt hf ht q
      dsimp only
      rw [hvalue.1.isFinite, Bool.and_true]
      cases (n.suppresses grid f).1 with
      | false => exact .some hvalue
      | true => exact ih _ hrest
    · exact ih n hrest

theorem mem_formulas_of_mem_candidates {r : Resolver} {c : Category} {own : GroupSet} {f : Formula}
    (h : f ∈ r.candidates c own) : f ∈ r.rules.formulas := by
  obtain ⟨g, _, hf⟩ := List.mem_flatMap.mp h
  unfold RuleSet.formulasOf at hf
  split at hf
  · obtain ⟨k, _, hk⟩ := List.mem_filterMap.mp hf
    exact List.mem_of_getElem? hk
  · cases hf

theorem probe_isExact {r : Resolver} (hrules : ∀ f ∈ r.rules.formulas, f.line.Whole)
    (c : Category) {t : Tile} (ht : t.InReach) {p : Terrain.Point} {q : Point} (hp : p.IsInt q)
    (hq : q.Within (2 ^ 51)) (grid : Grid) :
    Option.Rel Terrain.Contact.IsExact (r.probe c t p grid) (probe r c t q grid) := by
  have hcandidates : ∀ f ∈ r.candidates c (grid.membership t), f.line.Whole := by
    intro f hf
    exact hrules f (mem_formulas_of_mem_candidates hf)
  unfold Resolver.probe probe
  rw [pixelAt_eq ht hp hq]
  dsimp only
  split
  · have hscan := scan_isExact grid c.axis ht q (.around t (grid.membership t)) hcandidates
    generalize Resolver.scan _ _ _ _ _ = found at *
    generalize scan _ _ _ _ _ = exact at *
    cases hscan with
    | none => exact .none
    | some h => exact .some (hit_isExact c.axis ht h.1 h.2)
  · exact .none

/-! ### The whole answer -/

theorem sample_isInt (c : Category) {p : Terrain.Point} {q : Point} (hp : p.IsInt q)
    (hq : q.Within (2 ^ 50)) :
    (p + c.offset).IsInt (q + offset c) ∧ (q + offset c).Within (2 ^ 50 + 2 ^ 31) := by
  have hqx := hq.1
  have hqy := hq.2
  have := c.offsetX.le_toInt
  have := c.offsetX.toInt_lt
  have := c.offsetY.le_toInt
  have := c.offsetY.toInt_lt
  have hx : (q.x + c.offsetX.toInt).natAbs ≤ 2 ^ 50 + 2 ^ 31 := by omega
  have hy : (q.y + c.offsetY.toInt).natAbs ≤ 2 ^ 50 + 2 ^ 31 := by omega
  refine ⟨⟨?_, ?_⟩, hx, hy⟩
  · exact hp.x.add (isInt_coordinate c.offsetX) (hx.trans (by norm_num))
  · exact hp.y.add (isInt_coordinate c.offsetY) (hy.trans (by norm_num))

theorem previousTile?_eq {grid : Grid} (hgrid : grid.Uniform) (r : Resolver) (c : Category)
    {old : Terrain.Point} {p : Point} (hold : old.IsInt p) (hp : p.Within (2 ^ 51)) (cell : Cell) :
    r.previousTile? c old cell grid = previousTile? r c p cell grid := by
  unfold Resolver.previousTile? previousTile?
  rw [containing?_eq hgrid hold hp]

theorem resolveAt_isExact {r : Resolver} (hrules : ∀ f ∈ r.rules.formulas, f.line.Whole)
    {grid : Grid} (hgrid : grid.Uniform) (c : Category) {old new : Terrain.Point} {p q : Point}
    (hold : old.IsInt p) (hp : p.Within (2 ^ 50 + 2 ^ 31)) (hnew : new.IsInt q)
    (hq : q.Within (2 ^ 50 + 2 ^ 31)) :
    (r.resolveAt c old new grid).IsExact (resolveAt r c p q grid) := by
  have hp' : p.Within (2 ^ 51) := hp.mono (by norm_num)
  have hq' : q.Within (2 ^ 51) := hq.mono (by norm_num)
  unfold Resolver.resolveAt resolveAt
  rw [containing?_eq hgrid hnew hq']
  cases hcell : containing? q grid.tileWidth grid.tileHeight with
  | none => exact .miss _
  | some cell =>
    dsimp only
    cases htile : grid.tileAt cell with
    | none => exact .miss _
    | some tile =>
      dsimp only
      rw [previousTile?_eq hgrid r c hold hp']
      have hprobe := probe_isExact hrules c (inReach hgrid hq hcell htile) hnew hq' grid
      generalize r.probe c tile new grid = found at *
      generalize probe r c tile q grid = exact at *
      cases hprobe with
      | some h => exact h
      | none =>
        dsimp only
        cases hprevious : previousTile? r c p cell grid with
        | none => exact .miss _
        | some previous =>
          dsimp only
          -- The tile looked back into is in reach of the old point, and so of the new one.
          rw [← previousTile?_eq hgrid r c hold hp'] at hprevious
          obtain ⟨oldCell, holdCell, _, hprevious⟩ :=
            Resolver.previousTile?_eq_some_iff.mp hprevious
          rw [containing?_eq hgrid hold hp'] at holdCell
          have hprobe' := probe_isExact hrules c (inReach hgrid hp holdCell hprevious) hnew hq' grid
          generalize r.probe c previous new grid = found at *
          generalize probe r c previous q grid = exact at *
          cases hprobe' with
          | some h => exact h
          | none => exact .miss _

/-- On whole scenes the resolver answers as it would in the integers: the same tile, and the same
    coordinate, exactly. In the cell of the new position the pixel that is looked at is what the
    divisions leave over. -/
theorem resolve_isExact {r : Resolver} (hrules : ∀ f ∈ r.rules.formulas, f.line.Whole)
    {grid : Grid} (hgrid : grid.Uniform) (c : Category) {old new : Terrain.Point} {p q : Point}
    (hold : old.IsInt p) (hp : p.Within (2 ^ 50)) (hnew : new.IsInt q) (hq : q.Within (2 ^ 50)) :
    (r.resolve c old new grid).IsExact (resolve r c p q grid) ∧
      ∀ cell tile,
        Cell.containing? (new + c.offset) grid.tileWidth grid.tileHeight = some cell →
        grid.tileAt cell = some tile →
        tile.pixelAt (new + c.offset) =
          ⟨(q.x + c.offsetX.toInt) % grid.tileWidth.toNat,
            (q.y + c.offsetY.toInt) % grid.tileHeight.toNat⟩ := by
  obtain ⟨holdAt, hpAt⟩ := sample_isInt c hold hp
  obtain ⟨hnewAt, hqAt⟩ := sample_isInt c hnew hq
  constructor
  · unfold Resolver.resolve resolve
    split
    · exact .miss _
    · exact resolveAt_isExact hrules hgrid c holdAt hpAt hnewAt hqAt
  · intro cell tile hcell htile
    have hqAt' : (q + offset c).Within (2 ^ 51) := hqAt.mono (by norm_num)
    rw [containing?_eq hgrid hnewAt hqAt'] at hcell
    rw [pixelAt_eq (inReach hgrid hqAt hcell htile) hnewAt hqAt']
    exact pixelAt_inside hgrid hcell htile

/-- Left of the origin and above it, feet that fall through a ledge are put back onto it. The floor
    of the ledge is switched off by the block on top. -/
theorem resolve_isExact_below_ledge :
    let rules := Draft.ledge.linked ⟨1⟩
    let feet : Category := ⟨"feet", .y, 0, 0, [⟨0⟩], ⟨1⟩, [⟨0⟩, ⟨1⟩], ⟨1⟩⟩
    let field : Field := ⟨16, 16, 16, 16, none,
      [(⟨-3, -3⟩, some ⟨0, 2⟩), (⟨-3, -2⟩, some ⟨0, 1⟩), (⟨-3, -1⟩, some ⟨0, 2⟩)], rules⟩
    let old : Terrain.Point := ⟨.ofInt (-40), .ofInt (-20)⟩
    let new : Terrain.Point := ⟨.ofInt (-40), .ofInt (-10)⟩
    (∀ f ∈ rules.formulas, f.line.Whole) ∧ field.toGrid.Uniform ∧
      old.IsInt ⟨-40, -20⟩ ∧ new.IsInt ⟨-40, -10⟩ ∧
      ((Resolver.mk rules .axisChange).resolve feet old new field.toGrid).IsExact
        ⟨none, some (-20), ⟨some ⟨0, 1⟩, ⟨-3, -2⟩, 16, 16⟩⟩ ∧
      (Tile.mk (some ⟨0, 2⟩) ⟨-3, -1⟩ 16 16).pixelAt (new + feet.offset) = ⟨8, 6⟩ := by
  intro rules feet field old new
  have hrules : ∀ f ∈ rules.formulas, f.line.Whole := by
    have hlines : ∀ f ∈ rules.formulas,
        f.line = ⟨.ofInt 0, .ofInt 16⟩ ∨ f.line = ⟨.ofInt 1, .ofInt 4⟩ := by
      decide +kernel
    intro f hf
    rcases hlines f hf with h | h
    · rw [h]
      exact .of_ofInt (by norm_num) (by norm_num)
    · rw [h]
      exact .of_ofInt (by norm_num) (by norm_num)
  have hgrid : field.toGrid.Uniform := by
    have htile : ∀ {cell tile}, field.toGrid.tileAt cell = some tile →
        tile.cell = cell ∧ tile.width = 16 ∧ tile.height = 16 := by
      intro cell tile h
      obtain ⟨id, _, rfl⟩ := Option.map_eq_some_iff.mp h
      exact ⟨rfl, rfl, rfl⟩
    exact ⟨by decide, by decide, by decide, by decide, fun h => (htile h).1,
      fun h => (htile h).2.1, fun h => (htile h).2.2⟩
  have hold : old.IsInt ⟨-40, -20⟩ :=
    ⟨Binary64.isInt_ofInt (by norm_num), Binary64.isInt_ofInt (by norm_num)⟩
  have hnew : new.IsInt ⟨-40, -10⟩ :=
    ⟨Binary64.isInt_ofInt (by norm_num), Binary64.isInt_ofInt (by norm_num)⟩
  obtain ⟨hanswer, hpixel⟩ := resolve_isExact (r := ⟨rules, .axisChange⟩) hrules hgrid feet hold
    ⟨by decide, by decide⟩ hnew ⟨by decide, by decide⟩
  have hexact : resolve ⟨rules, .axisChange⟩ feet ⟨-40, -20⟩ ⟨-40, -10⟩ field.toGrid =
      ⟨none, some (-20), ⟨some ⟨0, 1⟩, ⟨-3, -2⟩, 16, 16⟩⟩ := by
    decide +kernel
  rw [hexact] at hanswer
  have hblock := hpixel ⟨-3, -1⟩ ⟨some ⟨0, 2⟩, ⟨-3, -1⟩, 16, 16⟩ (by decide +kernel)
    (by decide +kernel)
  exact ⟨hrules, hgrid, hold, hnew, hanswer, hblock.trans (by decide +kernel)⟩

end Exact
end Terrain
