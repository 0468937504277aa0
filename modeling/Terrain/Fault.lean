import Terrain.Decimal.Shortest
import Terrain.GroupSet
import Terrain.Plane

/-! ## Faults

Everything that can be wrong with rules or a map when they are made. Resolving never fails. Each
fault is a cause with its data; the wording is in `message`. -/

namespace Terrain

/-- A coefficient of a line. -/
inductive Coefficient where
  | slope
  | intercept
  deriving DecidableEq, Inhabited

/-- The written name. -/
def Coefficient.name : Coefficient → String
  | .slope => "a"
  | .intercept => "b"

/-- Why rules or a map were refused. -/
inductive Fault where
  | nonFiniteCoefficient (coefficient : Coefficient) (value : Binary64)
  | invalidRange (axis : Axis) (min max : Int32)
  | zeroTileSize (width height : UInt32)
  | duplicateFormula (name : String)
  | duplicateGroup (name : String)
  | duplicateCategory (name : String)
  | unknownFormula (group formula : String)
  /-- The owner is the formula or the category that holds the reference. -/
  | unknownGroup (owner group : String)
  | invalidTileSpan (group : String) (first last : UInt32)
  | tooManyGroups (count : Nat)
  | gridSize (expected actual : Nat)
  /-- A fault in the parts of one formula. -/
  | inFormula (name : String) (cause : Fault)
  /-- The text is not a rule definition. -/
  | malformedText
  /-- The file is missing or is not text. -/
  | unreadableFile
  deriving DecidableEq, Inhabited

namespace Fault

/-- The text shown to the author of the rules. -/
def message : Fault → String
  | .nonFiniteCoefficient c value =>
    "non-finite coefficient `" ++ c.name ++ "` = " ++ String.ofList value.toChars
  | .invalidRange axis min max =>
    "invalid " ++ axis.name ++ " range: min " ++ toString min.toInt ++ " > max " ++
      toString max.toInt
  | .zeroTileSize width height =>
    "tile size must be non-zero (got " ++ toString width.toNat ++ "x" ++
      toString height.toNat ++ ")"
  | .duplicateFormula name => "duplicate formula name `" ++ name ++ "`"
  | .duplicateGroup name => "duplicate group name `" ++ name ++ "`"
  | .duplicateCategory name => "duplicate category name `" ++ name ++ "`"
  | .unknownFormula group formula =>
    "group `" ++ group ++ "` references unknown formula `" ++ formula ++ "`"
  | .unknownGroup owner group => "`" ++ owner ++ "` references unknown group `" ++ group ++ "`"
  | .invalidTileSpan group first last =>
    "group `" ++ group ++ "` has tile span " ++ toString first.toNat ++ "..=" ++
      toString last.toNat ++ " with first > last"
  | .tooManyGroups count =>
    toString count ++ " groups defined, at most " ++ toString GroupSet.capacity ++ " supported"
  | .gridSize expected actual =>
    "tile map expects " ++ toString expected ++ " cells, got " ++ toString actual
  | .inFormula name cause => "formula `" ++ name ++ "`: " ++ cause.message
  | .malformedText => "parse error"
  | .unreadableFile => "IO error"

end Fault
end Terrain
