import Terrain.Grid.Field
import Terrain.Proofs.Binary64.Whole
import Terrain.Walk

/-! ## Applying what was found

A body is moved by its test points: the offset of a test point is added to the origin, the found
coordinates are put in, and the offset is taken away again. Both axes go there and back, also one
on which nothing was found. There the rounded sum decides: an exact one brings the coordinate
back, any other one may leave it a step of the grid away. -/

namespace Terrain

/-! ### There and back -/

namespace Binary64

variable {x y : Binary64}

/-- How far the rounded sum is from the sum. -/
def addError (x y : Binary64) : Rat := |(x + y).toRat - (x.toRat + y.toRat)|

/-- What is small against the largest steps carries no double past the largest one. -/
theorem abs_add_lt_overflow (hx : x.isFinite = true) (hsmall : |y.toRat| < 2 ^ (970 : Int)) :
    |x.toRat + y.toRat| < overflow := by
  have hstep : (2 : Rat) ^ (971 : Int) = 2 * 2 ^ (970 : Int) := zpow_one_add₀ two_ne_zero 970
  calc |x.toRat + y.toRat| ≤ |x.toRat| + |y.toRat| := abs_add_le _ _
    _ < 2 ^ (1024 : Int) - 2 ^ (971 : Int) + 2 ^ (970 : Int) :=
        add_lt_add_of_le_of_lt (abs_toRat_le hx) hsmall
    _ = overflow := by
        rw [hstep, overflow]
        ring

theorem isFinite_add (hx : x.isFinite = true) (hy : y.isFinite = true)
    (hsmall : |y.toRat| < 2 ^ (970 : Int)) : (x + y).isFinite = true := by
  rw [add_eq_ofRat hx hy]
  exact isFinite_ofRat (abs_add_lt_overflow hx hsmall) _

theorem addError_le (hx : x.isFinite = true) (hy : y.isFinite = true)
    (hsmall : |y.toRat| < 2 ^ (970 : Int)) :
    x.addError y ≤ 2 ^ gridExponent |x.toRat + y.toRat| / 2 := by
  rw [addError, add_eq_ofRat hx hy]
  by_cases hzero : x.toRat + y.toRat = 0
  · rw [hzero, ofRat_zero, toRat_zero, sub_zero, abs_zero]
    positivity
  · exact ofRat_error hzero (abs_add_lt_overflow hx hsmall) _

/-- No double is nearer to the sum than the rounded sum. -/
theorem addError_nearest (hx : x.isFinite = true) (hy : y.isFinite = true)
    (hsmall : |y.toRat| < 2 ^ (970 : Int)) {z : Binary64} (hz : z.isFinite = true) :
    x.addError y ≤ |z.toRat - (x.toRat + y.toRat)| := by
  rw [addError, add_eq_ofRat hx hy]
  exact ofRat_nearest (abs_add_lt_overflow hx hsmall) _ hz

theorem abs_toRat_neg_lt {r : Rat} (h : |y.toRat| < r) : |(-y).toRat| < r := by
  rw [toRat_neg, abs_neg]
  exact h

theorem isFinite_add_sub (hx : x.isFinite = true) (hy : y.isFinite = true)
    (hsmall : |y.toRat| < 2 ^ (970 : Int)) : (x + y - y).isFinite = true :=
  isFinite_add (isFinite_add hx hy hsmall) (isFinite_neg.trans hy) (abs_toRat_neg_lt hsmall)

/-- The way back adds no more than the way there: the number itself is a double, so the rounded
    difference is at least as near. -/
theorem abs_add_sub_le (hx : x.isFinite = true) (hy : y.isFinite = true)
    (hsmall : |y.toRat| < 2 ^ (970 : Int)) :
    |(x + y - y).toRat - x.toRat| ≤ 2 * x.addError y := by
  have hthere : |(x + y).toRat + (-y).toRat - x.toRat| = x.addError y := by
    rw [addError, toRat_neg]
    congr 1
    ring
  have hback : (x + y).addError (-y) ≤ x.addError y := by
    calc (x + y).addError (-y) ≤ |x.toRat - ((x + y).toRat + (-y).toRat)| :=
          addError_nearest (isFinite_add hx hy hsmall) (isFinite_neg.trans hy)
            (abs_toRat_neg_lt hsmall) hx
      _ = x.addError y := by rw [abs_sub_comm, hthere]
  calc |(x + y - y).toRat - x.toRat|
      ≤ (x + y).addError (-y) + |(x + y).toRat + (-y).toRat - x.toRat| := abs_sub_le _ _ _
    _ ≤ x.addError y + x.addError y := add_le_add hback hthere.le
    _ = 2 * x.addError y := (two_mul _).symm

/-- The error of a sum depends on the value of its first term only, not on the sign of a zero. -/
theorem addError_congr {z : Binary64} (hx : x.isFinite = true) (hz : z.isFinite = true)
    (hy : y.isFinite = true) (h : x.toRat = z.toRat) : x.addError y = z.addError y := by
  rw [addError, addError, add_eq_ofRat hx hy, add_eq_ofRat hz hy, h]
  by_cases hzero : z.toRat + y.toRat = 0
  · rw [hzero, ofRat_zero, ofRat_zero, toRat_zero, toRat_zero]
  · rw [ofRat_eq_ofRat hzero]

end Binary64

/-! ### One answer -/

/-- The coordinate found on an axis. -/
def Contact.on (c : Contact) : Axis → Option Binary64
  | .x => c.x
  | .y => c.y

namespace Category

theorem exists_offset (c : Category) (axis : Axis) :
    ∃ n : Int, n.natAbs ≤ 2 ^ 31 ∧ c.offset.on axis = .ofInt n := by
  cases axis with
  | x => exact ⟨c.offsetX.toInt, int32_natAbs_le c.offsetX, rfl⟩
  | y => exact ⟨c.offsetY.toInt, int32_natAbs_le c.offsetY, rfl⟩

theorem offset_small (c : Category) (axis : Axis) :
    (c.offset.on axis).isFinite = true ∧ |(c.offset.on axis).toRat| < 2 ^ (970 : Int) := by
  obtain ⟨n, hn, hoffset⟩ := c.exists_offset axis
  have hint : (Binary64.ofInt n).IsInt n := Binary64.isInt_ofInt (by omega)
  have hn' : (n.natAbs : Rat) ≤ 2 ^ (31 : Int) := by exact_mod_cast hn
  rw [hoffset, hint.toRat, Binary64.abs_intCast]
  exact ⟨hint.isFinite, hn'.trans_lt (zpow_lt_zpow_right₀ one_lt_two (by omega))⟩

/-- A found coordinate is where the test point comes to stand; on any other axis the test point
    goes there and back. -/
theorem apply_on (c : Category) (found : Contact) (origin : Point) (axis : Axis) :
    (c.apply found origin).on axis =
      (found.on axis).getD (origin.on axis + c.offset.on axis) - c.offset.on axis := by
  cases axis <;> rfl

/-- The sum of a coordinate and the offset needs no rounding. -/
def AddsExactly (c : Category) (axis : Axis) (v : Binary64) : Prop :=
  (v + c.offset.on axis).toRat = v.toRat + (c.offset.on axis).toRat

theorem addsExactly_iff {c : Category} {axis : Axis} {v : Binary64} :
    c.AddsExactly axis v ↔ v.addError (c.offset.on axis) = 0 := by
  rw [Binary64.addError, abs_eq_zero, sub_eq_zero, AddsExactly]

theorem AddsExactly.congr {c : Category} {axis : Axis} {v w : Binary64}
    (hv : v.isFinite = true) (hw : w.isFinite = true) (h : v.toRat = w.toRat)
    (hexact : c.AddsExactly axis v) : c.AddsExactly axis w := by
  rw [addsExactly_iff] at hexact ⊢
  rw [← Binary64.addError_congr hv hw (c.offset_small axis).1 h]
  exact hexact

variable {found : Contact} {origin : Point} {axis : Axis}

theorem apply_on_missed (c : Category) (hmiss : found.on axis = none) :
    (c.apply found origin).on axis =
      origin.on axis + c.offset.on axis - c.offset.on axis := by
  rw [apply_on, hmiss, Option.getD_none]

theorem isFinite_apply_on_missed (c : Category) (hmiss : found.on axis = none)
    (horigin : (origin.on axis).isFinite = true) :
    ((c.apply found origin).on axis).isFinite = true := by
  rw [apply_on_missed c hmiss]
  exact Binary64.isFinite_add_sub horigin (c.offset_small axis).1 (c.offset_small axis).2

theorem abs_apply_on_missed_le (c : Category) (hmiss : found.on axis = none)
    (horigin : (origin.on axis).isFinite = true) :
    |((c.apply found origin).on axis).toRat - (origin.on axis).toRat| ≤
      2 * (origin.on axis).addError (c.offset.on axis) := by
  rw [apply_on_missed c hmiss]
  exact Binary64.abs_add_sub_le horigin (c.offset_small axis).1 (c.offset_small axis).2

theorem toRat_apply_on_missed {c : Category} (hmiss : found.on axis = none)
    (horigin : (origin.on axis).isFinite = true) (hexact : c.AddsExactly axis (origin.on axis)) :
    ((c.apply found origin).on axis).toRat = (origin.on axis).toRat := by
  have hdrift := c.abs_apply_on_missed_le hmiss horigin
  rw [addsExactly_iff.mp hexact, mul_zero] at hdrift
  exact sub_eq_zero.mp (abs_nonpos_iff.mp hdrift)

end Category

/-! ### A list of answers -/

namespace Resolver

theorem settle_cons (r : Resolver) (id : CategoryId) (contact : Contact)
    (found : List (CategoryId × Contact)) (origin : Point) :
    r.settle ((id, contact) :: found) origin =
      r.settle found (match r.rules.category? id with
        | some c => c.apply contact origin
        | none => origin) :=
  rfl

/-- Answers that find nothing on an axis leave the coordinate where it is, when no offset rounds
    it. -/
theorem toRat_settle_missed (r : Resolver) (axis : Axis) (found : List (CategoryId × Contact))
    (origin : Point) (horigin : (origin.on axis).isFinite = true)
    (hmiss : ∀ answer ∈ found, answer.2.on axis = none)
    (hexact : ∀ answer ∈ found, ∀ c, r.rules.category? answer.1 = some c →
      c.AddsExactly axis (origin.on axis)) :
    ((r.settle found origin).on axis).isFinite = true ∧
      ((r.settle found origin).on axis).toRat = (origin.on axis).toRat := by
  induction found generalizing origin with
  | nil => exact ⟨horigin, rfl⟩
  | cons answer found ih =>
    obtain ⟨id, contact⟩ := answer
    rw [settle_cons]
    have hmiss' : ∀ answer ∈ found, answer.2.on axis = none := fun a ha =>
      hmiss a (List.mem_cons_of_mem _ ha)
    cases hc : r.rules.category? id with
    | none => exact ih origin horigin hmiss' fun a ha => hexact a (List.mem_cons_of_mem _ ha)
    | some c =>
      have hnone : contact.on axis = none := hmiss (id, contact) List.mem_cons_self
      have hfinite := c.isFinite_apply_on_missed hnone horigin
      have hvalue := Category.toRat_apply_on_missed hnone horigin
        (hexact (id, contact) List.mem_cons_self c hc)
      -- The moved coordinate is the same number, so the other offsets do not round it either.
      have hexact' : ∀ a ∈ found, ∀ d, r.rules.category? a.1 = some d →
          d.AddsExactly axis ((c.apply contact origin).on axis) := fun a ha d hd =>
        (hexact a (List.mem_cons_of_mem _ ha) d hd).congr horigin hfinite hvalue.symm
      obtain ⟨hfinal, heq⟩ := ih (c.apply contact origin) hfinite hmiss' hexact'
      exact ⟨hfinal, heq.trans hvalue⟩

/-- On an axis on which nothing was found a finite coordinate stays finite, moves by one step of
    the grid of the test point at most, and does not move at all when the offset is added to it
    exactly. That last is so for any number of test points one after the other. -/
theorem settle_on_missed (r : Resolver) (axis : Axis) (origin : Point)
    (horigin : (origin.on axis).isFinite = true) :
    (∀ (c : Category) (found : Contact), found.on axis = none →
      ((c.apply found origin).on axis).isFinite = true ∧
        |((c.apply found origin).on axis).toRat - (origin.on axis).toRat| ≤
          2 ^ Binary64.gridExponent |(origin.on axis).toRat + (c.offset.on axis).toRat| ∧
        (c.AddsExactly axis (origin.on axis) →
          ((c.apply found origin).on axis).numEq (origin.on axis) = true)) ∧
      ∀ found : List (CategoryId × Contact), (∀ answer ∈ found, answer.2.on axis = none) →
        (∀ answer ∈ found, ∀ c, r.rules.category? answer.1 = some c →
          c.AddsExactly axis (origin.on axis)) →
        ((r.settle found origin).on axis).numEq (origin.on axis) = true := by
  constructor
  · intro c found hmiss
    have hfinite := c.isFinite_apply_on_missed hmiss horigin
    refine ⟨hfinite, ?_, fun hexact => ?_⟩
    · have herror := Binary64.addError_le horigin (c.offset_small axis).1 (c.offset_small axis).2
      have hdrift := c.abs_apply_on_missed_le hmiss horigin
      linarith
    · rw [Binary64.numEq_iff hfinite horigin]
      exact Category.toRat_apply_on_missed hmiss horigin hexact
  · intro found hmiss hexact
    obtain ⟨hfinite, hvalue⟩ := r.toRat_settle_missed axis found origin horigin hmiss hexact
    rw [Binary64.numEq_iff hfinite horigin]
    exact hvalue

/-- Whole numbers of this size are added exactly, so feet with an offset stay where they are. -/
theorem settle_on_missed_whole :
    let feet : Category := ⟨"feet", .y, 8, 16, [], ⟨0⟩, [], ⟨1⟩⟩
    let rules : RuleSet := ⟨⟨1⟩, [], [], [feet]⟩
    let miss : Contact := .miss (.vacant ⟨0, 0⟩ 16 16)
    let origin : Point := ⟨.ofInt 40, .ofInt 63⟩
    (origin.on .x).isFinite = true ∧ miss.on .x = none ∧
      feet.AddsExactly .x (origin.on .x) ∧
      ((feet.apply miss origin).on .x).numEq (origin.on .x) = true ∧
      (((mk rules .never).settle [(⟨0⟩, miss), (⟨0⟩, miss)] origin).on .x).numEq
        (origin.on .x) = true := by
  intro feet rules miss origin
  have hfinite : (origin.on .x).isFinite = true := by decide +kernel
  have hexact : feet.AddsExactly .x (origin.on .x) := by
    unfold Category.AddsExactly
    decide +kernel
  obtain ⟨hone, hall⟩ := settle_on_missed (mk rules .never) .x origin hfinite
  refine ⟨hfinite, rfl, hexact, (hone feet miss rfl).2.2 hexact, hall _ ?_ ?_⟩
  · simp [miss, Contact.miss, Contact.on]
  · intro answer hanswer c hc
    obtain rfl : answer = (⟨0⟩, miss) := by simpa using hanswer
    obtain rfl : feet = c := Option.some.inj hc
    exact hexact

/-- A tenth is not added exactly: the answer of a test point that found nothing moves the body, also
    in a walk that stands still over an empty field. -/
theorem apply_moves_missed :
    let feet : Category := ⟨"feet", .y, 8, 16, [], ⟨0⟩, [], ⟨1⟩⟩
    let rules : RuleSet := ⟨⟨1⟩, [], [], [feet]⟩
    let miss : Contact := .miss (.vacant ⟨0, 1⟩ 16 16)
    let origin : Point := ⟨.ofRat false (1 / 10), .ofRat false (1 / 10)⟩
    let tick := (mk rules .axisChange).tick [⟨0⟩] ⟨.ofInt 0, .ofInt 0⟩
      (Field.mk 16 16 16 16 none [] rules).toGrid origin
    (∀ axis, (origin.on axis).isFinite = true ∧ miss.on axis = none ∧
        ((feet.apply miss origin).on axis).numEq (origin.on axis) = false) ∧
      tick.found = [(⟨0⟩, miss)] ∧
      ∀ axis, (tick.position.on axis).numEq (origin.on axis) = false := by
  refine ⟨?_, by decide +kernel, ?_⟩
  · intro axis
    cases axis <;> decide +kernel
  · intro axis
    cases axis <;> decide +kernel

end Resolver
end Terrain
