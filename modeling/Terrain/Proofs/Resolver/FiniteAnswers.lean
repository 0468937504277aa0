import Terrain.Proofs.Resolver.Applying
import Terrain.Proofs.Resolver.Exact

/-! ## Finite answers

Every coordinate that is found is a finite number. Only the value of a formula is checked for that,
and the corner of the tile is added afterwards. But two words make no corner that is far enough out
to carry any double past the largest one, whatever a grid writes into its tiles. -/

namespace Terrain

/-! ### Corners -/

theorem Binary64.isFinite_small_add {x y : Binary64} (hx : x.isFinite = true)
    (hsmall : |x.toRat| < 2 ^ (970 : Int)) (hy : y.isFinite = true) : (x + y).isFinite = true := by
  rw [add_eq_ofRat hx hy, add_comm]
  exact isFinite_ofRat (abs_add_lt_overflow hy hsmall) _

/-- A corner is the product of a signed word and an unsigned one, rounded once. -/
theorem Binary64.corner_small (k : Int32) (size : UInt32) :
    (ofInt k.toInt * ofInt size.toNat).isFinite = true ∧
      |(ofInt k.toInt * ofInt size.toNat).toRat| < 2 ^ (970 : Int) := by
  have hk := Exact.isInt_coordinate k
  have hsize := Exact.isInt_size size
  have hbound : |(k.toInt : Rat) * size.toNat| ≤ 2 ^ (63 : Int) := by
    have hk' : |(k.toInt : Rat)| ≤ 2 ^ 31 := by
      rw [abs_intCast]
      exact_mod_cast int32_natAbs_le k
    have hsize' : (size.toNat : Rat) ≤ 2 ^ 32 := by exact_mod_cast size.toNat_lt.le
    rw [abs_mul, Nat.abs_cast]
    calc |(k.toInt : Rat)| * size.toNat ≤ 2 ^ 31 * 2 ^ 32 := by gcongr
      _ = 2 ^ (63 : Int) := by norm_num
  have hoverflow : |(k.toInt : Rat) * size.toNat| < overflow :=
    lt_overflow (hbound.trans_lt (zpow_lt_zpow_right₀ one_lt_two (by omega)))
  rw [mul_eq_ofRat hk.isFinite hsize.isFinite, hk.toRat, hsize.toRat, Int.cast_natCast]
  refine ⟨isFinite_ofRat hoverflow _, (abs_ofRat_le hoverflow _).trans_lt ?_⟩
  calc 2 * |(k.toInt : Rat) * size.toNat| ≤ 2 * 2 ^ (63 : Int) := by gcongr
    _ = 2 ^ (64 : Int) := (zpow_one_add₀ two_ne_zero 63).symm
    _ < 2 ^ (970 : Int) := zpow_lt_zpow_right₀ one_lt_two (by omega)

theorem Tile.origin_small (t : Tile) (axis : Axis) :
    (t.origin.on axis).isFinite = true ∧ |(t.origin.on axis).toRat| < 2 ^ (970 : Int) := by
  cases axis with
  | x => exact Binary64.corner_small t.cell.x t.width
  | y => exact Binary64.corner_small t.cell.y t.height

/-! ### One tile -/

/-- Every coordinate that was found is a finite number. -/
def Contact.Finite (c : Contact) : Prop := ∀ axis v, c.on axis = some v → v.isFinite = true

theorem Contact.miss_finite (tile : Tile) : (Contact.miss tile).Finite := by
  intro axis v h
  cases axis <;> cases h

theorem Contact.hit_finite (axis : Axis) (tile : Tile) {value : Binary64}
    (hvalue : value.isFinite = true) : (Contact.hit axis tile value).Finite := by
  obtain ⟨hcorner, hsmall⟩ := tile.origin_small axis
  have hsum := Binary64.isFinite_small_add hcorner hsmall hvalue
  intro axis' v h
  cases axis <;> cases axis' <;> cases h <;> exact hsum

namespace Resolver

/-- A formula with any other value is passed over. -/
theorem scan_isFinite (grid : Grid) (axis : Axis) (p : Pixel) (n : Neighborhood)
    {fs : List Formula} {v : Binary64} (h : scan grid axis p n fs = some v) :
    v.isFinite = true := by
  induction fs generalizing n with
  | nil => cases h
  | cons f rest ih =>
    rw [scan] at h
    split at h
    · dsimp only at h
      split at h
      · rename_i hfires
        cases h
        exact (Bool.and_eq_true_iff.mp hfires).2
      · exact ih _ h
    · exact ih n h

theorem probe_finite (r : Resolver) (c : Category) (tile : Tile) (p : Point) (grid : Grid)
    {found : Contact} (h : r.probe c tile p grid = some found) : found.Finite := by
  unfold probe at h
  dsimp only at h
  split at h
  · obtain ⟨value, hscan, rfl⟩ := Option.map_eq_some_iff.mp h
    exact Contact.hit_finite c.axis tile (scan_isFinite _ _ _ _ hscan)
  · cases h

/-! ### The whole answer -/

/-- Both tiles that are looked at answer with a finite number or not at all. -/
theorem resolveAt_finite (r : Resolver) (c : Category) (old new : Point) (grid : Grid) :
    (r.resolveAt c old new grid).Finite := by
  unfold resolveAt
  split
  · exact Contact.miss_finite _
  split
  · exact Contact.miss_finite _
  split
  · rename_i found hprobe
    exact r.probe_finite c _ new grid hprobe
  split
  · rename_i previous _
    cases hprobe : r.probe c previous new grid with
    | none => exact Contact.miss_finite previous
    | some found => exact r.probe_finite c previous new grid hprobe
  · exact Contact.miss_finite _

/-- Neither the rules, nor the tiles of the grid, nor the points need be of any size for that. -/
theorem isFinite_of_resolve {r : Resolver} {c : Category} {old new : Point} {grid : Grid}
    {axis : Axis} {v : Binary64} (h : (r.resolve c old new grid).on axis = some v) :
    v.isFinite = true := by
  have hfinite : (r.resolve c old new grid).Finite := by
    unfold resolve
    split
    · exact Contact.miss_finite _
    · exact r.resolveAt_finite c _ _ grid
  exact hfinite axis v h

/-- The largest double as the value, in a tile of the largest size and the farthest address. The sum
    is rounded back to the largest double. -/
theorem isFinite_of_resolve_farthest :
    let largest : Binary64 := .finite false (2 ^ 53 - 1) 971 (by decide)
    let floor : Formula := ⟨"floor", ⟨.y, 0, 15, 0, 15⟩, ⟨.zero false, largest⟩, .none⟩
    let feet : Category := ⟨"feet", .y, 0, 0, [⟨0⟩], ⟨1⟩, [⟨0⟩], ⟨1⟩⟩
    let rules : RuleSet := ⟨⟨1⟩, [floor], [⟨"top", [.single 0 0], [⟨0⟩]⟩], [feet]⟩
    let field : Field := ⟨16, 16, 4294967295, 4294967295, some ⟨0, 0⟩, [], rules⟩
    let p : Point := ⟨.ofInt 8, .ofInt (16 * 2147483647)⟩
    ((mk rules .never).resolve feet p p field.toGrid).on .y = some largest ∧
      largest.isFinite = true := by
  intro largest floor feet rules field p
  have hfound : ((mk rules .never).resolve feet p p field.toGrid).on .y = some largest := by
    decide +kernel
  exact ⟨hfound, isFinite_of_resolve hfound⟩

end Resolver
end Terrain
