import Terrain.Fault

/-! ## Maps of names

While a draft is linked, its definitions are entered by name, each at its place in its list, so that
a reference can be replaced by a place. A name may be entered once. -/

namespace Terrain

/-- The places of names. -/
structure NameMap where
  /-- The last entry first; it hides earlier ones of the same name. -/
  entries : List (String × Nat)
  deriving DecidableEq, Inhabited

namespace NameMap

instance : EmptyCollection NameMap := ⟨⟨[]⟩⟩

/-- The place of a name. -/
def get? (m : NameMap) (name : String) : Option Nat := m.entries.lookup name

/-- Enters a name at a place, and tells the place that it had before. -/
def insert (m : NameMap) (name : String) (place : Nat) : NameMap × Option Nat :=
  (⟨(name, place) :: m.entries⟩, m.get? name)

/-- Enters a name that has to be new. -/
def enter (m : NameMap) (repeated : String → Fault) (name : String) (place : Nat) :
    Except Fault NameMap :=
  if (m.insert name place).2.isSome then .error (repeated name) else .ok (m.insert name place).1

/-! ### Look-ups -/

@[simp] theorem get?_empty (name : String) : (∅ : NameMap).get? name = none := rfl

theorem get?_insert (m : NameMap) (name other : String) (place : Nat) :
    (m.insert name place).1.get? other = if other = name then some place else m.get? other := by
  unfold get? insert
  rw [List.lookup_cons]
  by_cases h : other = name
  · rw [if_pos h, beq_iff_eq.mpr h]
  · rw [if_neg h, beq_false_of_ne h]

end NameMap
end Terrain
