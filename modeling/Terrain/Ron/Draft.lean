import Terrain.Draft
import Terrain.Resolver.Basic
import Terrain.Ron.Document
import Terrain.Ron.Field

/-! ## Drafts as text

The written form of drafts and of the lookback policy: for each type the names of its fields, in
the order in which they are written, and the values that may be left out. -/

namespace Terrain

open Ron

/-! ### Zones and lines -/

/-- Reads an axis. -/
def Axis.ofValue? : Reader Axis := fun _ v => v.word?.bind Axis.ofName?

/-- The written form of an axis. -/
def Axis.toValue (a : Axis) : Value := .ofName a.name

/-- Reads a direction. -/
def Orientation.ofValue? : Reader Orientation := fun _ v => v.word?.bind Orientation.ofName?

/-- The written form of a direction. -/
def Orientation.toValue (o : Orientation) : Value := .ofName o.name

/-- Reads a zone, without checking its bounds. -/
def Zone.ofValue? : Reader Zone := fun room v => do
  let fs ← v.fields? "CollisionRange" room
  return {
    axis := ← fs.required "output_axis" Axis.ofValue?
    minX := ← fs.required "min_x" Value.signed?
    maxX := ← fs.required "max_x" Value.signed?
    minY := ← fs.required "min_y" Value.signed?
    maxY := ← fs.required "max_y" Value.signed? }

/-- The written form of a zone. -/
def Zone.toValue (z : Zone) : Value :=
  .ofFields [("output_axis", z.axis.toValue), ("min_x", .ofSigned z.minX),
    ("max_x", .ofSigned z.maxX), ("min_y", .ofSigned z.minY), ("max_y", .ofSigned z.maxY)]

/-- Reads a line, without checking its coefficients. -/
def Line.ofValue? : Reader Line := fun room v => do
  let (name, fs) ← v.case? room
  guard (name = "Linear")
  return {
    slope := ← fs.required "a" Value.double?
    intercept := ← fs.required "b" Value.double? }

/-- The written form of a line. -/
def Line.toValue (l : Line) : Value :=
  .ofCase "Linear" [("a", .ofDouble l.slope), ("b", .ofDouble l.intercept)]

/-! ### Tiles -/

/-- Reads a span of tiles, without checking its ends. -/
def TileSpan.ofValue? : Reader TileSpan := fun room v => do
  let (name, fs) ← v.case? room
  match name with
  | "Tile" =>
    return .single (← fs.required "sheet" Value.unsigned?) (← fs.required "index" Value.unsigned?)
  | "Range" =>
    return .run (← fs.required "sheet" Value.unsigned?) (← fs.required "first" Value.unsigned?)
      (← fs.required "last" Value.unsigned?)
  | _ => none

/-- The written form of a span of tiles. -/
def TileSpan.toValue : TileSpan → Value
  | .single sheet index =>
    .ofCase "Tile" [("sheet", .ofUnsigned sheet), ("index", .ofUnsigned index)]
  | .run sheet first last =>
    .ofCase "Range" [("sheet", .ofUnsigned sheet), ("first", .ofUnsigned first),
      ("last", .ofUnsigned last)]

/-! ### Formulas -/

/-- Reads the blocking groups of a formula. Of two entries for one direction the last counts. -/
def blockedOfValue? : Reader (Compass (Option (List String))) := fun room v =>
  (Value.map? Orientation.ofValue? (Value.list? Value.text?) room v).map fun entries =>
    entries.foldl (fun c (o, names) => c.set o (some names)) (.fill none)

/-- The written form of the blocking groups of a formula: the listed directions in their order. -/
def blockedToValue (blocked : Compass (Option (List String))) : Value :=
  .map (blocked.toList.filterMap fun (o, names) =>
    names.map fun names => (o.toValue, .list (names.map .text)))

/-- Reads a formula. -/
def FormulaDraft.ofValue? : Reader FormulaDraft := fun room v => do
  let fs ← v.fields? "FormulaDef" room
  return {
    name := ← fs.required "name" Value.text?
    zone := ← fs.required "range" Zone.ofValue?
    line := ← fs.required "function" Line.ofValue?
    blocked := ← fs.optional "constraint" (.fill none) blockedOfValue? }

/-- The written form of a formula. -/
def FormulaDraft.toValue (f : FormulaDraft) : Value :=
  .ofFields [("name", .text f.name), ("range", f.zone.toValue), ("function", f.line.toValue),
    ("constraint", blockedToValue f.blocked)]

/-! ### Groups and categories -/

/-- Reads a group. -/
def GroupDraft.ofValue? : Reader GroupDraft := fun room v => do
  let fs ← v.fields? "GroupDef" room
  return {
    name := ← fs.required "name" Value.text?
    tiles := ← fs.optional "tiles" [] (Value.list? TileSpan.ofValue?)
    formulas := ← fs.optional "formulas" [] (Value.list? Value.text?) }

/-- The written form of a group. -/
def GroupDraft.toValue (g : GroupDraft) : Value :=
  .ofFields [("name", .text g.name), ("tiles", .list (g.tiles.map TileSpan.toValue)),
    ("formulas", .list (g.formulas.map .text))]

/-- Reads a category. -/
def CategoryDraft.ofValue? : Reader CategoryDraft := fun room v => do
  let fs ← v.fields? "CategoryDef" room
  return {
    name := ← fs.required "name" Value.text?
    axis := ← fs.required "axis" Axis.ofValue?
    offsetX := ← fs.optional "offset_x" 0 Value.signed?
    offsetY := ← fs.optional "offset_y" 0 Value.signed?
    groups := ← fs.optional "groups" [] (Value.list? Value.text?) }

/-- The written form of a category. -/
def CategoryDraft.toValue (c : CategoryDraft) : Value :=
  .ofFields [("name", .text c.name), ("axis", c.axis.toValue), ("offset_x", .ofSigned c.offsetX),
    ("offset_y", .ofSigned c.offsetY), ("groups", .list (c.groups.map .text))]

/-! ### Drafts -/

namespace Draft

/-- Reads a draft from a value. -/
def ofValue? : Reader Draft := fun room v => do
  let fs ← v.fields? "RulesDef" room
  return {
    formulas := ← fs.optional "formulas" [] (Value.list? FormulaDraft.ofValue?)
    groups := ← fs.optional "groups" [] (Value.list? GroupDraft.ofValue?)
    categories := ← fs.optional "categories" [] (Value.list? CategoryDraft.ofValue?) }

/-- The written form of a draft. -/
def toValue (d : Draft) : Value :=
  .ofFields [("formulas", .list (d.formulas.map FormulaDraft.toValue)),
    ("groups", .list (d.groups.map GroupDraft.toValue)),
    ("categories", .list (d.categories.map CategoryDraft.toValue))]

/-- Reads a draft. -/
def ofText? (text : String) : Option Draft := (Value.ofText? text).bind (ofValue? maxHeight)

/-- Writes a draft. -/
def toText (d : Draft) : String := d.toValue.toText

/-- Whether a draft agrees with what its own text reads back as. -/
def readsBack (d : Draft) : Bool := (ofText? d.toText).any d.agrees

end Draft

/-! ### Policies -/

namespace Lookback

/-- Reads a policy. The field may be left out. -/
def ofValue? : Reader Lookback := fun room v => do
  let fs ← v.fields? "ResolverConfig" room
  fs.optional "lookback" default fun _ v => v.word?.bind ofName?

/-- The written form of a policy. -/
def toValue (l : Lookback) : Value := .ofFields [("lookback", .ofName l.name)]

/-- Reads a policy. -/
def ofText? (text : String) : Option Lookback := (Value.ofText? text).bind (ofValue? maxHeight)

/-- Writes a policy. -/
def toText (l : Lookback) : String := l.toValue.toText

end Lookback
end Terrain
