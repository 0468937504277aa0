import Terrain.Proofs.Resolver.Exact

/-! ## Sampling

The cell and the pixel of a sample that need not be whole. Both are exact on the non-negative side
and in every cell but the last before zero. There a quotient too near to zero is rounded to zero,
and a distance too fine for its grid is rounded to the pixel boundary above. -/

namespace Terrain

open Binary64 (gridExponent ofRat)

/-! ### Counting pixels -/

theorem Tile.pixelCoordinate_of_nonneg {d : Binary64} {size : UInt32} (hpos : 0 < size.toNat)
    (hlt : size.toNat < 2 ^ 31) (hd : d.isFinite = true) (hnonneg : 0 ≤ d.toRat) :
    pixelCoordinate d size = min ((size.toNat : Int) - 1) d.toRat.floor := by
  have hfloor : 0 ≤ d.toRat.floor := Rat.le_floor_iff.mpr (by exact_mod_cast hnonneg)
  cases d with
  | nan => cases hd
  | infinite s => cases hd
  | finite s m e hm =>
    unfold pixelCoordinate lastPixel Binary64.truncateWithin
    dsimp only
    rw [if_neg hnonneg.not_gt]
    omega

/-! ### Samples -/

/-- A coordinate of moderate size, the size of the cells, and the cell that holds the coordinate. -/
structure Sample (v : Binary64) (size : UInt32) (k : Int32) : Prop where
  isFinite : v.isFinite = true
  bounded : |v.toRat| ≤ 2 ^ 52
  size_pos : 0 < size.toNat
  size_lt : size.toNat < 2 ^ 31
  cell_eq : k.toInt = (v.toRat / size.toNat).floor

namespace Sample

/-- The pixel of a coordinate, counted from the corner of the cell that holds it. -/
def exactPixel (v : Rat) (size : UInt32) : Int := v.floor - (v / size.toNat).floor * size.toNat

/-- The coordinate is negative, and its quotient by the size is no further from zero than half the
    least double. -/
def Vanishes (v : Rat) (size : UInt32) : Prop := v < 0 ∧ -v ≤ 2 ^ (-1075 : Int) * size.toNat

/-- The coordinate is in the last cell before zero, neither at its corner nor in its last pixel, and
    the next pixel is half a step away at most, on the grid of the distance to the corner. -/
def Carries (v : Rat) (size : UInt32) : Prop :=
  -size.toNat < v ∧ v < -1 ∧ v.floor + 1 - v ≤ 2 ^ gridExponent (v + size.toNat) / 2

/-- What is computed for a coordinate: the column or row, and the pixel in the cell that holds the
    coordinate. -/
structure Located (v : Rat) (size : UInt32) (index : Int32) (pixel : Int) : Prop where
  index_eq : ¬ Vanishes v size → index.toInt = (v / size.toNat).floor
  index_eq_zero : Vanishes v size → index = 0
  pixel_eq : ¬ Carries v size → pixel = exactPixel v size
  pixel_eq_next : Carries v size → pixel = exactPixel v size + 1

/-- How far the coordinate is from the corner of a cell. -/
def distance (v : Binary64) (size : UInt32) (k : Int32) : Rat :=
  v.toRat - (k.toInt * size.toNat : Int)

/-- The pixel that a tile in a cell finds under the coordinate. -/
def pixelIn (v : Binary64) (size : UInt32) (k : Int32) : Int :=
  Tile.pixelCoordinate (v - Binary64.ofInt k.toInt * Binary64.ofInt size.toNat) size

variable {v : Binary64} {size : UInt32} {k : Int32} (h : Sample v size k)

/-! ### Cells -/

theorem abs_quotient (v : Binary64) (size : UInt32) :
    |v.toRat / size.toNat| = |v.toRat| / size.toNat := by
  rw [abs_div, Nat.abs_cast]

include h

theorem cast_size_pos : (0 : Rat) < size.toNat := by
  exact_mod_cast h.size_pos

theorem coordinate?_eq (hstays : ¬ Vanishes v.toRat size) : Cell.coordinate? v size = some k := by
  have hquotient : 0 ≤ v.toRat ∨ 2 ^ (-1075 : Int) < |v.toRat / (size.toNat : Int)| := by
    refine (le_or_gt 0 v.toRat).imp_right fun hneg => ?_
    rw [Int.cast_natCast, abs_quotient, abs_of_neg hneg, lt_div_iff₀ h.cast_size_pos]
    exact not_le.mp fun hle => hstays ⟨hneg, hle⟩
  have hsize : 0 < (size.toNat : Int) := by exact_mod_cast h.size_pos
  unfold Cell.coordinate?
  rw [Binary64.floor?_div h.isFinite h.bounded hsize (Exact.isInt_size size) hquotient]
  exact int32?_eq_some_iff.mpr h.cell_eq

theorem coordinate?_eq_zero (hvanish : Vanishes v.toRat size) :
    Cell.coordinate? v size = some 0 := by
  obtain ⟨hneg, hle⟩ := hvanish
  have hsize : 0 < (size.toNat : Int) := by exact_mod_cast h.size_pos
  have hne : v.toRat / (size.toNat : Int) ≠ 0 :=
    div_ne_zero hneg.ne (by exact_mod_cast hsize.ne')
  have htiny : |v.toRat / (size.toNat : Int)| ≤ 2 ^ (-1075 : Int) := by
    rw [Int.cast_natCast, abs_quotient, abs_of_neg hneg, div_le_iff₀ h.cast_size_pos]
    exact hle
  unfold Cell.coordinate?
  rw [Binary64.floor?_div_of_tiny h.isFinite h.bounded hsize (Exact.isInt_size size) hne htiny]
  rfl

/-! ### Distances -/

/-- The corner of the cell. -/
theorem corner_le : (k.toInt * size.toNat : Rat) ≤ v.toRat := by
  rw [h.cell_eq, ← le_div_iff₀ h.cast_size_pos]
  exact Rat.floor_le _

theorem lt_corner_add_size : v.toRat < k.toInt * size.toNat + size.toNat := by
  rw [← add_one_mul, h.cell_eq, ← div_lt_iff₀ h.cast_size_pos]
  exact_mod_cast Rat.lt_floor_add_one _

theorem natAbs_corner_le : (k.toInt * size.toNat).natAbs ≤ 2 ^ 53 := by
  obtain ⟨hlow, hhigh⟩ := abs_le.mp h.bounded
  have hsize : (size.toNat : Rat) < 2 ^ 31 := by exact_mod_cast h.size_lt
  have hbelow : -2 ^ 53 ≤ k.toInt * size.toNat := by
    have := h.lt_corner_add_size
    exact_mod_cast (by linarith : (-2 ^ 53 : Rat) ≤ k.toInt * size.toNat)
  have habove : k.toInt * size.toNat ≤ 2 ^ 53 := by
    have := h.corner_le
    exact_mod_cast (by linarith : (k.toInt * size.toNat : Rat) ≤ 2 ^ 53)
  omega

theorem distance_nonneg : 0 ≤ distance v size k := by
  unfold distance
  push_cast
  exact sub_nonneg.mpr h.corner_le

theorem distance_lt : distance v size k < size.toNat := by
  have hnext := h.lt_corner_add_size
  unfold distance
  push_cast
  linarith

theorem abs_distance_le : |distance v size k| ≤ 2 ^ 52 := by
  have hsize : (size.toNat : Rat) < 2 ^ 31 := by exact_mod_cast h.size_lt
  rw [abs_of_nonneg h.distance_nonneg]
  linarith [h.distance_lt]

theorem floor_distance : (distance v size k).floor = exactPixel v.toRat size := by
  rw [exactPixel, ← h.cell_eq, distance]
  refine rat_floor_eq_iff.mpr ⟨?_, ?_⟩
  · push_cast
    linarith [Rat.floor_le v.toRat]
  · have hnext := Rat.lt_floor_add_one v.toRat
    push_cast at hnext ⊢
    linarith

theorem exactPixel_mem : 0 ≤ exactPixel v.toRat size ∧ exactPixel v.toRat size < size.toNat := by
  rw [← h.floor_distance]
  exact ⟨Rat.le_floor_iff.mpr (by exact_mod_cast h.distance_nonneg),
    Rat.floor_lt_iff.mpr (by exact_mod_cast h.distance_lt)⟩

/-- The distance is rounded once, and then its fraction is cut off. -/
theorem exists_pixelIn_eq :
    ∃ s, pixelIn v size k =
      min ((size.toNat : Int) - 1) (ofRat s (distance v size k)).toRat.floor := by
  have hcorner := Binary64.isInt_ofInt h.natAbs_corner_le
  have hround : ∃ s, v - Binary64.ofInt k.toInt * Binary64.ofInt size.toNat =
      ofRat s (distance v size k) := by
    rw [Exact.corner_eq k h.size_pos, Binary64.sub_eq_add_neg,
      Binary64.add_eq_ofRat h.isFinite hcorner.neg.isFinite, hcorner.neg.toRat, Int.cast_neg,
      ← sub_eq_add_neg]
    exact ⟨_, rfl⟩
  obtain ⟨s, hs⟩ := hround
  have hsmall := h.abs_distance_le
  have hnonneg : 0 ≤ (ofRat s (distance v size k)).toRat := by
    refine le_trans ?_ (Binary64.floor_le_ofRat hsmall s)
    rw [h.floor_distance]
    exact_mod_cast h.exactPixel_mem.1
  refine ⟨s, ?_⟩
  rw [pixelIn, hs]
  exact Tile.pixelCoordinate_of_nonneg h.size_pos h.size_lt
    (Binary64.isFinite_ofRat (Binary64.abs_lt_overflow hsmall) s) hnonneg

/-! ### The last cell before zero -/

/-- Only there a distance is larger than the coordinate. -/
theorem cell_eq_neg_one (hlong : |v.toRat| < |distance v size k|) :
    k.toInt = -1 ∧ v.toRat < 0 := by
  have hsize := h.cast_size_pos
  have hnext := h.lt_corner_add_size
  rw [abs_of_nonneg h.distance_nonneg, distance] at hlong
  push_cast at hlong
  have hneg : k.toInt < 0 := by
    refine lt_of_not_ge fun hnonneg => ?_
    have hproduct : (0 : Rat) ≤ k.toInt * size.toNat := by exact_mod_cast by positivity
    linarith [le_abs_self v.toRat]
  have hlast : ¬ k.toInt ≤ -2 := by
    intro hle
    have hle' : (k.toInt : Rat) ≤ -2 := by exact_mod_cast hle
    have hproduct := mul_le_mul_of_nonneg_right hle' hsize.le
    linarith [neg_abs_le v.toRat]
  have hk : k.toInt = -1 := by omega
  rw [hk] at hnext
  push_cast at hnext
  exact ⟨hk, by linarith⟩

theorem cell_eq_of_neg (hcorner : -size.toNat < v.toRat) (hneg : v.toRat < 0) : k.toInt = -1 := by
  have hsize := h.cast_size_pos
  rw [h.cell_eq]
  refine rat_floor_eq_iff.mpr ⟨?_, ?_⟩
  · rw [le_div_iff₀ hsize]
    push_cast
    linarith
  · rw [div_lt_iff₀ hsize]
    push_cast
    linarith

omit h in
theorem distance_eq (hk : k.toInt = -1) : distance v size k = v.toRat + size.toNat := by
  rw [distance, hk]
  push_cast
  ring

theorem exactPixel_eq (hk : k.toInt = -1) :
    exactPixel v.toRat size = v.toRat.floor + size.toNat := by
  rw [exactPixel, ← h.cell_eq, hk]
  ring

/-- The distance is rounded up to the next pixel exactly when it carries. -/
theorem carries_iff (hcorner : -size.toNat < v.toRat) (hbefore : v.toRat < -1) (s : Bool) :
    (ofRat s (distance v size k)).toRat = exactPixel v.toRat size + 1 ↔ Carries v.toRat size := by
  have hk := h.cell_eq_of_neg hcorner (by linarith)
  have hsize : (size.toNat : Rat) < 2 ^ 31 := by exact_mod_cast h.size_lt
  have hfloor := h.floor_distance
  have hgap : ((exactPixel v.toRat size : Int) : Rat) + 1 - distance v size k =
      v.toRat.floor + 1 - v.toRat := by
    rw [h.exactPixel_eq hk, distance_eq hk]
    push_cast
    ring
  have hpos : 0 < distance v size k := by
    rw [distance_eq hk]
    linarith
  rw [← hfloor, Binary64.ofRat_eq_floor_add_one_iff hpos (by linarith [h.distance_lt]), hfloor,
    hgap, distance_eq hk]
  exact ⟨fun hstep => ⟨hcorner, hbefore, hstep⟩, fun hcarry => hcarry.2.2⟩

/-! ### Pixels -/

theorem pixel_eq (hkept : ¬ Carries v.toRat size) : pixelIn v size k = exactPixel v.toRat size := by
  obtain ⟨s, hs⟩ := h.exists_pixelIn_eq
  have hpixel := h.exactPixel_mem.2
  have hsmall := h.abs_distance_le
  have hfloor := h.floor_distance
  rw [hs]
  rcases le_or_gt |distance v size k| |v.toRat| with hshort | hlong
  · have hexact : (ofRat s (distance v size k)).toRat = distance v size k :=
      Binary64.toRat_ofRat_sub h.isFinite h.bounded hshort s
    rw [hexact, hfloor]
    omega
  obtain ⟨hk, hneg⟩ := h.cell_eq_neg_one hlong
  rcases le_or_gt (-1) v.toRat with hlast | hbefore
  · -- The last pixel is not left, whatever the distance is rounded to.
    have hfloor' : -1 ≤ v.toRat.floor := Rat.le_floor_iff.mpr (by exact_mod_cast hlast)
    have hround := Rat.le_floor_iff.mpr (Binary64.floor_le_ofRat hsmall s)
    have hpixel' := h.exactPixel_eq hk
    omega
  · have hcorner : -size.toNat < v.toRat := by
      rw [abs_of_nonneg h.distance_nonneg, abs_of_neg hneg, distance_eq hk] at hlong
      linarith
    have hne := mt (h.carries_iff hcorner hbefore s).mp hkept
    rw [← hfloor] at hne
    have hlt := lt_of_le_of_ne (Binary64.ofRat_le_floor_add_one hsmall s) hne
    rw [Binary64.floor_ofRat hsmall hlt, hfloor]
    omega

theorem pixel_eq_next (hcarry : Carries v.toRat size) :
    pixelIn v size k = exactPixel v.toRat size + 1 := by
  obtain ⟨hcorner, hbefore, _⟩ := id hcarry
  obtain ⟨s, hs⟩ := h.exists_pixelIn_eq
  have hround := (h.carries_iff hcorner hbefore s).mpr hcarry
  have hnext : (ofRat s (distance v size k)).toRat.floor = exactPixel v.toRat size + 1 := by
    rw [hround]
    exact_mod_cast Rat.floor_intCast (exactPixel v.toRat size + 1)
  -- The next pixel is still one of the tile.
  have hroom : v.toRat.floor < -1 := Rat.floor_lt_iff.mpr (by exact_mod_cast hbefore)
  have hpixel := h.exactPixel_eq (h.cell_eq_of_neg hcorner (by linarith))
  rw [hs, hnext]
  omega

theorem exists_located : ∃ index, Cell.coordinate? v size = some index ∧
    Located v.toRat size index (pixelIn v size k) := by
  by_cases hvanish : Vanishes v.toRat size
  · exact ⟨0, h.coordinate?_eq_zero hvanish, fun hstays => absurd hvanish hstays, fun _ => rfl,
      h.pixel_eq, h.pixel_eq_next⟩
  · exact ⟨k, h.coordinate?_eq hvanish, fun _ => h.cell_eq, fun hzero => absurd hzero hvanish,
      h.pixel_eq, h.pixel_eq_next⟩

end Sample

/-- Columns and rows are exact unless a quotient vanishes, and pixels are exact unless a distance
    carries, and then they are the next ones. -/
theorem Point.located {p : Point} {t : Tile} (hx : Sample p.x t.width t.cell.x)
    (hy : Sample p.y t.height t.cell.y) :
    ∃ found, Cell.containing? p t.width t.height = some found ∧
      Sample.Located p.x.toRat t.width found.x (t.pixelAt p).x ∧
      Sample.Located p.y.toRat t.height found.y (t.pixelAt p).y := by
  obtain ⟨column, hcolumn, hcolumnX⟩ := hx.exists_located
  obtain ⟨row, hrow, hrowY⟩ := hy.exists_located
  refine ⟨⟨column, row⟩, ?_, hcolumnX, hrowY⟩
  unfold Cell.containing?
  rw [hcolumn, hrow]
  rfl

/-- In the column the sample is on the positive side; in the row it is one step above the last pixel
    before zero. -/
theorem Point.located_beside_last_pixel :
    let p : Point := ⟨.ofRat false (81 / 2), .ofRat false (-1 - 1 / 2 ^ 52)⟩
    let t : Tile := .vacant ⟨2, -1⟩ 16 16
    Sample p.x t.width t.cell.x ∧ Sample p.y t.height t.cell.y ∧
      ∃ found, Cell.containing? p t.width t.height = some found ∧ found = t.cell ∧
        (t.pixelAt p).x = Sample.exactPixel p.x.toRat t.width ∧
        (t.pixelAt p).y = Sample.exactPixel p.y.toRat t.height + 1 := by
  intro p t
  have hx : Sample p.x t.width t.cell.x := by
    constructor <;> decide +kernel
  have hy : Sample p.y t.height t.cell.y := by
    constructor <;> decide +kernel
  obtain ⟨found, hfound, hcolumn, hrow⟩ := located hx hy
  refine ⟨hx, hy, found, hfound, ?_, hcolumn.pixel_eq ?_, hrow.pixel_eq_next ?_⟩
  · refine Cell.ext (Int32.toInt_inj.mp ?_) (Int32.toInt_inj.mp ?_)
    · rw [hcolumn.index_eq (by unfold Sample.Vanishes; decide +kernel), hx.cell_eq]
    · rw [hrow.index_eq (by unfold Sample.Vanishes; decide +kernel), hy.cell_eq]
  · unfold Sample.Carries
    decide +kernel
  · unfold Sample.Carries
    decide +kernel

/-- The least double before zero is put into the column after zero, and the row next to the last
    pixel before zero is taken for the last pixel. -/
theorem Point.misplaced_before_zero :
    let p : Point := ⟨.ofRat false (-1 / 2 ^ 1074), .ofRat false (-1 - 1 / 2 ^ 52)⟩
    let t : Tile := .vacant ⟨-1, -1⟩ 3 16
    Sample p.x t.width t.cell.x ∧ Sample p.y t.height t.cell.y ∧
      Cell.containing? p t.width t.height = some ⟨0, -1⟩ ∧
      Sample.exactPixel p.y.toRat t.height = 14 ∧ (t.pixelAt p).y = 15 := by
  intro p t
  have hx : Sample p.x t.width t.cell.x := by
    constructor <;> decide +kernel
  have hy : Sample p.y t.height t.cell.y := by
    constructor <;> decide +kernel
  exact ⟨hx, hy, by decide +kernel, by decide +kernel, by decide +kernel⟩

end Terrain
