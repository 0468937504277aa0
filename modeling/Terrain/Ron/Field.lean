import Terrain.Ron.Value

/-! ## Reading values

What a typed reader asks of a value: a text, a number, a list, the fields of a record. Fields may
come in any order, and fields that nobody asks for are passed over.

A document may nest a limited number of levels. Every reader is told how many of them are left for
its value, and a record or a case that nests deeper is refused, whatever its fields are for. -/

namespace Terrain.Ron

/-- The number of levels that a document may nest. -/
def maxHeight : Nat := 128

/-- Reads a value that may nest the given number of levels. -/
abbrev Reader (α : Type) := Nat → Value → Option α

/-- The fields of a record. -/
structure Fields where
  /-- By name, as written. -/
  entries : List (Word × Value)
  /-- The number of levels that a field may nest. -/
  room : Nat

namespace Fields

/-- The values given for a name, in order. A raw name is the same name. -/
def valuesOf (fs : Fields) (name : String) : List Value :=
  (fs.entries.filter (·.1.name == name)).map (·.2)

/-- A field that has to be there once. -/
def required {α : Type} (fs : Fields) (name : String) (read : Reader α) : Option α :=
  match fs.valuesOf name with
  | [v] => read fs.room v
  | _ => none

/-- A field that may be there once. -/
def optional {α : Type} (fs : Fields) (name : String) (absent : α) (read : Reader α) : Option α :=
  match fs.valuesOf name with
  | [] => some absent
  | [v] => read fs.room v
  | _ => none

end Fields

namespace Value

/-- The name in front of a record and its fields. -/
def record? : Value → Option (Option String × List (Word × Value))
  | .record name fs => some (name.map (·.name), fs)
  | .tuple name [] => some (name.map (·.name), [])
  | .unit => some (none, [])
  | _ => none

/-- The fields of a record of a type. The name of the type may be left out. -/
def fields? (type : String) (room : Nat) (v : Value) : Option Fields := do
  guard (v.height ≤ room)
  let (name, fs) ← v.record?
  guard (name.getD type = type)
  return ⟨fs, room - 2⟩

/-- The name and the fields of a case with fields. A case nests one level more than a record. -/
def case? (room : Nat) (v : Value) : Option (String × Fields) := do
  guard (v.height + 1 ≤ room)
  let (name, fs) ← v.record?
  return (← name, ⟨fs, room - 3⟩)

/-- The name of a case without fields. -/
def word? : Value → Option String
  | .word w => some w.name
  | _ => none

/-- A text. -/
def text? : Reader String
  | _, .text s => some s
  | _, _ => none

/-- A list whose items are all readable. -/
def list? {α : Type} (read : Reader α) : Reader (List α)
  | room, .list vs => vs.mapM (read (room - 2))
  | _, _ => none

/-- A map whose entries are all readable. -/
def map? {α β : Type} (readKey : Reader α) (read : Reader β) : Reader (List (α × β))
  | room, .map es => es.mapM fun (k, v) => do return (← readKey (room - 2) k, ← read (room - 2) v)
  | _, _ => none

/-- A signed 32-bit word. -/
def signed? : Reader Int32
  | _, .numeral run => Numeral.signed? run
  | _, _ => none

/-- An unsigned 32-bit word. -/
def unsigned? : Reader UInt32
  | _, .numeral run => Numeral.unsigned? run
  | _, _ => none

/-- A double. -/
def double? : Reader Binary64
  | _, .numeral run => Numeral.double? run
  | _, .word w => if w.raw then none else Numeral.special? w.name.toList
  | _, _ => none

/-! ### Building values -/

/-- A case without fields. -/
def ofName (name : String) : Value := .word (.plain name)

/-- A signed 32-bit word. -/
def ofSigned (n : Int32) : Value := .numeral (toString n.toInt).toList

/-- An unsigned 32-bit word. -/
def ofUnsigned (n : UInt32) : Value := .numeral (toString n.toNat).toList

/-- A double. The special values without a sign are words. -/
def ofDouble : Binary64 → Value
  | .nan => ofName "NaN"
  | .infinite false => ofName "inf"
  | x => .numeral (Numeral.ofDouble x)

/-- A record without the name of its type. -/
def ofFields (fs : List (String × Value)) : Value :=
  .record none (fs.map fun (name, v) => (.plain name, v))

/-- A case with fields. -/
def ofCase (name : String) (fs : List (String × Value)) : Value :=
  .record (some (.plain name)) (fs.map fun (name, v) => (.plain name, v))

end Value
end Terrain.Ron
