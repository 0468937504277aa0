/-! ## Compass

The nine directions of a cell and its eight neighbours, and tables that hold one entry for each
direction. The grid's `y` grows downward, so `top` is one row up in memory and on screen. -/

namespace Terrain

/-- A direction from a cell to a neighbour, or to the cell itself. -/
inductive Orientation where
  | center
  | top
  | topRight
  | right
  | bottomRight
  | bottom
  | bottomLeft
  | left
  | topLeft
  deriving DecidableEq, Inhabited

namespace Orientation

/-- All directions, in their fixed order: the cell itself, then clockwise from the top. -/
def all : List Orientation :=
  [.center, .top, .topRight, .right, .bottomRight, .bottom, .bottomLeft, .left, .topLeft]

/-- The place of a direction in the fixed order. -/
def index : Orientation → Fin 9
  | .center => 0
  | .top => 1
  | .topRight => 2
  | .right => 3
  | .bottomRight => 4
  | .bottom => 5
  | .bottomLeft => 6
  | .left => 7
  | .topLeft => 8

/-- Columns and rows from a cell to its neighbour. -/
def offset : Orientation → Int × Int
  | .center => (0, 0)
  | .top => (0, -1)
  | .topRight => (1, -1)
  | .right => (1, 0)
  | .bottomRight => (1, 1)
  | .bottom => (0, 1)
  | .bottomLeft => (-1, 1)
  | .left => (-1, 0)
  | .topLeft => (-1, -1)

/-- The written name. -/
def name : Orientation → String
  | .center => "None"
  | .top => "Top"
  | .topRight => "TopRight"
  | .right => "Right"
  | .bottomRight => "BottomRight"
  | .bottom => "Bottom"
  | .bottomLeft => "BottomLeft"
  | .left => "Left"
  | .topLeft => "TopLeft"

/-- The direction of a written name. -/
def ofName? (s : String) : Option Orientation := all.find? (·.name == s)

theorem mem_all (o : Orientation) : o ∈ all := by
  cases o <;> decide

/-- The fixed order lists every direction at its place. -/
theorem getElem?_all_iff {i : Nat} {o : Orientation} : all[i]? = some o ↔ o.index.val = i := by
  constructor
  · intro h
    obtain ⟨hi, rfl⟩ := List.getElem?_eq_some_iff.mp h
    have hplace : ∀ (i : Nat) (hi : i < 9), (all.get ⟨i, hi⟩).index.val = i := by decide
    exact hplace i hi
  · rintro rfl
    cases o <;> rfl

theorem index_injective {o p : Orientation} (h : o.index = p.index) : o = p := by
  revert h
  cases o <;> cases p <;> decide

theorem ofName?_name (o : Orientation) : ofName? o.name = some o := by
  cases o <;> rfl

end Orientation

/-- A table with one entry for each direction. -/
structure Compass (α : Type) where
  entries : Vector α 9
  deriving DecidableEq

namespace Compass

variable {α β : Type}

/-- The table with the same entry everywhere. -/
def fill (a : α) : Compass α := ⟨Vector.replicate 9 a⟩

instance [Inhabited α] : Inhabited (Compass α) := ⟨fill default⟩

/-- The entry for a direction. -/
def get (c : Compass α) (o : Orientation) : α := c.entries[o.index]

/-- The table with the entry for one direction replaced. -/
def set (c : Compass α) (o : Orientation) (a : α) : Compass α :=
  ⟨c.entries.set o.index.val a o.index.isLt⟩

/-- The table with all entries changed alike. -/
def map (f : α → β) (c : Compass α) : Compass β := ⟨c.entries.map f⟩

/-- The entries with their directions, in the fixed order. -/
def toList (c : Compass α) : List (Orientation × α) := Orientation.all.map fun o => (o, c.get o)

@[simp] theorem get_fill (a : α) (o : Orientation) : (fill a).get o = a := by
  simp [fill, get]

theorem get_map (f : α → β) (c : Compass α) (o : Orientation) : (c.map f).get o = f (c.get o) :=
  Vector.getElem_map f o.index.isLt

theorem get_set (c : Compass α) (o p : Orientation) (a : α) :
    (c.set o a).get p = if o = p then a else c.get p := by
  unfold get set
  by_cases h : o = p
  · subst h
    simp
  · have hi : o.index.val ≠ p.index.val := fun he => h (Orientation.index_injective (Fin.ext he))
    simp [h, Vector.getElem_set_ne _ _ hi]

/-- Two tables are equal when they agree in every direction. -/
theorem ext_get {c d : Compass α} (h : ∀ o, c.get o = d.get o) : c = d := by
  cases c with | mk u => cases d with | mk v =>
  congr
  apply Vector.ext
  intro i hi
  have hget : ∀ o : Orientation, u[o.index] = v[o.index] := h
  match i, hi with
  | 0, _ => exact hget .center
  | 1, _ => exact hget .top
  | 2, _ => exact hget .topRight
  | 3, _ => exact hget .right
  | 4, _ => exact hget .bottomRight
  | 5, _ => exact hget .bottom
  | 6, _ => exact hget .bottomLeft
  | 7, _ => exact hget .left
  | 8, _ => exact hget .topLeft

end Compass
end Terrain
