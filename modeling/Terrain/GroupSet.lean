/-! ## Sets of groups

A group is known by its place in the rule set. At most 64 groups exist, so a set of them is one
64-bit word, bit `n` for group `n`. -/

namespace Terrain

/-- The place of a group in its rule set. -/
structure GroupId where
  index : Nat
  deriving DecidableEq, Inhabited

/-- A set of groups. -/
structure GroupSet where
  bits : BitVec 64
  deriving DecidableEq

namespace GroupSet

/-- The number of groups that a set can tell apart. -/
def capacity : Nat := 64

/-- The set with no groups. -/
def empty : GroupSet := ⟨0⟩

instance : EmptyCollection GroupSet := ⟨empty⟩
instance : Inhabited GroupSet := ⟨empty⟩

/-- The set of one group. -/
def single (g : GroupId) : GroupSet := ⟨BitVec.twoPow 64 g.index⟩

/-- The groups of either set. -/
def union (s t : GroupSet) : GroupSet := ⟨s.bits ||| t.bits⟩

instance : Union GroupSet := ⟨union⟩

/-- The set with one more group. -/
def insert (s : GroupSet) (g : GroupId) : GroupSet := s ∪ single g

/-- Whether a group belongs to the set. -/
def contains (s : GroupSet) (g : GroupId) : Bool := s.bits.getLsbD g.index

/-- Whether two sets share a group. -/
def intersects (s t : GroupSet) : Bool := s.bits &&& t.bits != 0

/-- Whether the set has no groups. -/
def isEmpty (s : GroupSet) : Bool := s.bits == 0

/-- The set of the listed groups. -/
def ofList (gs : List GroupId) : GroupSet := gs.foldl insert ∅

/-- The groups of the set, in ascending order. -/
def toList (s : GroupSet) : List GroupId :=
  ((List.range capacity).map GroupId.mk).filter s.contains

/-- The number of ones in the binary form of `n`. -/
def countOnes (n : Nat) : Nat :=
  if n = 0 then 0 else n % 2 + countOnes (n / 2)

/-- The number of groups in the set. -/
def size (s : GroupSet) : Nat := countOnes s.bits.toNat

/-! ### Membership -/

@[simp] theorem contains_empty (g : GroupId) : (∅ : GroupSet).contains g = false := by
  simp [EmptyCollection.emptyCollection, empty, contains]

@[simp] theorem contains_union (s t : GroupSet) (g : GroupId) :
    (s ∪ t).contains g = (s.contains g || t.contains g) := by
  simp [Union.union, union, contains]

theorem contains_single (g h : GroupId) :
    (single g).contains h = (decide (g = h) && decide (g.index < capacity)) := by
  cases g with | mk i => cases h with | mk j =>
  simp only [single, contains, BitVec.getLsbD_twoPow, capacity, GroupId.mk.injEq]
  by_cases hij : i = j <;> simp [hij]

theorem contains_insert (s : GroupSet) (g h : GroupId) :
    (s.insert g).contains h =
      (s.contains h || (decide (g = h) && decide (g.index < capacity))) := by
  simp [insert, contains_single]

end GroupSet
end Terrain
