import Terrain.Proofs.Ron.Form
import Terrain.Ron.Draft

/-! ## Drafts read back

A written draft is a document, and reading it gives the draft again: every name and number, the
coefficients bit for bit, and the constraints of every direction. So does every other form of the
draft that is intact. -/

namespace Terrain

open Ron

variable {room : Nat}

/-! ### Zones and lines -/

theorem Axis.ofValue?_toValue (a : Axis) : Axis.ofValue? room a.toValue = some a := ofName?_name a

theorem Axis.wellFormed_toValue (a : Axis) : a.toValue.WellFormed := by
  cases a <;> exact .word (by decide) rfl

theorem Axis.reads_toValue {a : Axis} : (Form.same a.toValue).Reads room Axis.ofValue? a :=
  .same a.ofValue?_toValue (Nat.zero_le room)

theorem Orientation.ofValue?_toValue (o : Orientation) :
    Orientation.ofValue? room o.toValue = some o := ofName?_name o

theorem Orientation.wellFormed_toValue (o : Orientation) : o.toValue.WellFormed := by
  cases o <;> exact .word (by decide) rfl

theorem Zone.wellFormed_toValue (z : Zone) : z.toValue.WellFormed := by
  refine Value.wellFormed_ofFields (List.cons_ne_nil _ _) ?_ ?_
  · simp only [List.forall_mem_cons]
    decide
  · simp only [List.forall_mem_cons]
    exact ⟨z.axis.wellFormed_toValue, Value.wellFormed_ofSigned _, Value.wellFormed_ofSigned _,
      Value.wellFormed_ofSigned _, Value.wellFormed_ofSigned _, fun _ h => nomatch h⟩

/-- The forms of a zone. -/
def Zone.form (room : Nat) (z : Zone) : Form :=
  .ofFields room [
    .required "output_axis" (.same z.axis.toValue),
    .required "min_x" (.same (.ofSigned z.minX)),
    .required "max_x" (.same (.ofSigned z.maxX)),
    .required "min_y" (.same (.ofSigned z.minY)),
    .required "max_y" (.same (.ofSigned z.maxY))]

theorem Zone.form_toValue (room : Nat) (z : Zone) : z.form room true z.toValue :=
  Form.ofFields_of_given <| .whole rfl ⟨rfl, rfl⟩ <| .whole rfl ⟨rfl, rfl⟩ <|
    .whole rfl ⟨rfl, rfl⟩ <| .whole rfl ⟨rfl, rfl⟩ <| .whole rfl ⟨rfl, rfl⟩ .nil

theorem Zone.reads_form (h : 2 ≤ room) (z : Zone) : (z.form room).Reads room Zone.ofValue? z := by
  have hword : ∀ n, (Form.same (.ofSigned n)).Reads (room - 2) Value.signed? n := fun _ => .signed
  refine .ofFields h (by simp) ?_ (fun fs flags hflags => ?_) "CollisionRange"
  · simp only [List.forall_mem_cons]
    exact ⟨fun _ => Axis.reads_toValue.height_le, fun _ => (hword _).height_le,
      fun _ => (hword _).height_le, fun _ => (hword _).height_le, fun _ => (hword _).height_le,
      fun _ h => nomatch h⟩
  · obtain _ | ⟨haxis, _ | ⟨hminX, _ | ⟨hmaxX, _ | ⟨hminY, _ | ⟨hmaxY, _ | _⟩⟩⟩⟩⟩ := hflags
    rw [FieldForm.required_of_stands haxis Axis.reads_toValue,
      FieldForm.required_of_stands hminX (hword _), FieldForm.required_of_stands hmaxX (hword _),
      FieldForm.required_of_stands hminY (hword _), FieldForm.required_of_stands hmaxY (hword _)]
    simp [Form.bind_intact, ite_and]

theorem Line.wellFormed_toValue (l : Line) : l.toValue.WellFormed := by
  refine Value.wellFormed_ofCase ⟨by decide, rfl, rfl⟩ (List.cons_ne_nil _ _) ?_ ?_
  · simp only [List.forall_mem_cons]
    decide
  · simp only [List.forall_mem_cons]
    exact ⟨Value.wellFormed_ofDouble _, Value.wellFormed_ofDouble _, fun _ h => nomatch h⟩

/-- The forms of a line. -/
def Line.form (room : Nat) (l : Line) : Form :=
  .ofCase room "Linear" [
    .required "a" (.same (.ofDouble l.slope)),
    .required "b" (.same (.ofDouble l.intercept))]

theorem Line.form_toValue (room : Nat) (l : Line) : l.form room true l.toValue :=
  Form.ofCase_of_given <| .whole rfl ⟨rfl, rfl⟩ <| .whole rfl ⟨rfl, rfl⟩ .nil

theorem Line.reads_form (h : 3 ≤ room) (l : Line) : (l.form room).Reads room Line.ofValue? l := by
  have hdouble : ∀ x, (Form.same (.ofDouble x)).Reads (room - 3) Value.double? x := fun _ => .double
  refine .ofCase h (by simp) ?_ (fun fs flags hflags => ?_)
  · simp only [List.forall_mem_cons]
    exact ⟨fun _ => (hdouble _).height_le, fun _ => (hdouble _).height_le, fun _ h => nomatch h⟩
  · obtain _ | ⟨hslope, _ | ⟨hintercept, _ | _⟩⟩ := hflags
    dsimp only
    rw [FieldForm.required_of_stands hslope (hdouble _),
      FieldForm.required_of_stands hintercept (hdouble _)]
    simp [Form.bind_intact, ite_and, guard]

/-! ### Tiles -/

theorem TileSpan.wellFormed_toValue (t : TileSpan) : t.toValue.WellFormed := by
  cases t with
  | single sheet index =>
    refine Value.wellFormed_ofCase ⟨by decide, rfl, rfl⟩ (List.cons_ne_nil _ _) ?_ ?_
    · simp only [List.forall_mem_cons]
      decide
    · simp only [List.forall_mem_cons]
      exact ⟨Value.wellFormed_ofUnsigned _, Value.wellFormed_ofUnsigned _, fun _ h => nomatch h⟩
  | run sheet first last =>
    refine Value.wellFormed_ofCase ⟨by decide, rfl, rfl⟩ (List.cons_ne_nil _ _) ?_ ?_
    · simp only [List.forall_mem_cons]
      decide
    · simp only [List.forall_mem_cons]
      exact ⟨Value.wellFormed_ofUnsigned _, Value.wellFormed_ofUnsigned _,
        Value.wellFormed_ofUnsigned _, fun _ h => nomatch h⟩

/-- The forms of a span of tiles. -/
def TileSpan.form (room : Nat) : TileSpan → Form
  | .single sheet index =>
    .ofCase room "Tile" [
      .required "sheet" (.same (.ofUnsigned sheet)),
      .required "index" (.same (.ofUnsigned index))]
  | .run sheet first last =>
    .ofCase room "Range" [
      .required "sheet" (.same (.ofUnsigned sheet)),
      .required "first" (.same (.ofUnsigned first)),
      .required "last" (.same (.ofUnsigned last))]

theorem TileSpan.form_toValue (room : Nat) (t : TileSpan) : t.form room true t.toValue := by
  cases t with
  | single sheet index =>
    exact Form.ofCase_of_given <| .whole rfl ⟨rfl, rfl⟩ <| .whole rfl ⟨rfl, rfl⟩ .nil
  | run sheet first last =>
    exact Form.ofCase_of_given <| .whole rfl ⟨rfl, rfl⟩ <| .whole rfl ⟨rfl, rfl⟩ <|
      .whole rfl ⟨rfl, rfl⟩ .nil

theorem TileSpan.reads_form (h : 3 ≤ room) (t : TileSpan) :
    (t.form room).Reads room TileSpan.ofValue? t := by
  have hword : ∀ n, (Form.same (.ofUnsigned n)).Reads (room - 3) Value.unsigned? n :=
    fun _ => .unsigned
  cases t with
  | single sheet index =>
    refine .ofCase h (by simp) ?_ (fun fs flags hflags => ?_)
    · simp only [List.forall_mem_cons]
      exact ⟨fun _ => (hword _).height_le, fun _ => (hword _).height_le, fun _ h => nomatch h⟩
    · obtain _ | ⟨hsheet, _ | ⟨hindex, _ | _⟩⟩ := hflags
      dsimp only
      rw [FieldForm.required_of_stands hsheet (hword _),
        FieldForm.required_of_stands hindex (hword _)]
      simp [Form.bind_intact, ite_and]
  | run sheet first last =>
    refine .ofCase h (by simp) ?_ (fun fs flags hflags => ?_)
    · simp only [List.forall_mem_cons]
      exact ⟨fun _ => (hword _).height_le, fun _ => (hword _).height_le,
        fun _ => (hword _).height_le, fun _ h => nomatch h⟩
    · obtain _ | ⟨hsheet, _ | ⟨hfirst, _ | ⟨hlast, _ | _⟩⟩⟩ := hflags
      dsimp only
      rw [FieldForm.required_of_stands hsheet (hword _),
        FieldForm.required_of_stands hfirst (hword _),
        FieldForm.required_of_stands hlast (hword _)]
      simp [Form.bind_intact, ite_and]

example : (TileSpan.run 0 3 5).toValue.toText = "Range(sheet:0,first:3,last:5)" := by
  decide +kernel

/-! ### Names and blocking groups -/

theorem wellFormed_texts (names : List String) :
    (Value.list (names.map .text)).WellFormed :=
  Value.wellFormed_list .text names

theorem height_texts_le (names : List String) : (Value.list (names.map .text)).height ≤ 2 :=
  Value.height_list_le (List.forall_mem_map.mpr fun _ _ => Nat.zero_le 0)

theorem list?_texts (names : List String) :
    Value.list? Value.text? room (.list (names.map .text)) = some names :=
  Value.list?_map (fun _ => rfl) names

theorem reads_texts (h : 2 ≤ room) (names : List String) :
    (Form.same (.list (names.map .text))).Reads room (Value.list? Value.text?) names :=
  .same (list?_texts names) ((height_texts_le names).trans h)

/-- The listed directions put back into a table, over one that does not contradict them. -/
theorem get_foldl_listed {α : Type} (blocked : Compass (Option α)) (os : List Orientation)
    (c : Compass (Option α)) (p : Orientation) :
    ((os.filterMap fun o => (blocked.get o).map fun a => (o, a)).foldl
        (fun c (o, a) => c.set o (some a)) c).get p =
      if p ∈ os then (blocked.get p).or (c.get p) else c.get p := by
  induction os generalizing c with
  | nil => rfl
  | cons o os ih =>
    cases ho : blocked.get o with
    | none =>
      rw [List.filterMap_cons_none (by rw [ho]; rfl), ih]
      by_cases hp : p = o
      · subst hp
        simp [ho]
      · simp [hp]
    | some a =>
      rw [List.filterMap_cons_some (by rw [ho]; rfl), List.foldl_cons, ih]
      by_cases hp : o = p
      · subst hp
        simp [ho, Compass.get_set]
      · have hp' : p ≠ o := Ne.symm hp
        simp [Compass.get_set, hp, hp']

/-- The listed directions, each with what it lists. -/
theorem blockedToValue_eq (blocked : Compass (Option (List String))) :
    blockedToValue blocked = .map (Orientation.all.filterMap fun o =>
      (blocked.get o).map fun names => (o.toValue, .list (names.map .text))) := by
  unfold blockedToValue Compass.toList
  rw [List.filterMap_map]
  rfl

theorem mem_blocked {blocked : Compass (Option (List String))} {e : Value × Value}
    (he : e ∈ Orientation.all.filterMap fun o =>
      (blocked.get o).map fun names => (o.toValue, Value.list (names.map .text))) :
    ∃ (o : Orientation) (names : List String), e = (o.toValue, .list (names.map .text)) := by
  obtain ⟨o, _, hnames⟩ := List.mem_filterMap.mp he
  obtain ⟨names, _, rfl⟩ := Option.map_eq_some_iff.mp hnames
  exact ⟨o, names, rfl⟩

theorem wellFormed_blockedToValue (blocked : Compass (Option (List String))) :
    (blockedToValue blocked).WellFormed := by
  rw [blockedToValue_eq]
  refine .map (fun e he => ?_) fun e he => ?_
  · obtain ⟨o, names, rfl⟩ := mem_blocked he
    exact o.wellFormed_toValue
  · obtain ⟨o, names, rfl⟩ := mem_blocked he
    exact wellFormed_texts names

theorem height_blockedToValue_le (blocked : Compass (Option (List String))) :
    (blockedToValue blocked).height ≤ 4 := by
  rw [blockedToValue_eq]
  refine Value.height_map_le fun e he => ?_
  obtain ⟨o, names, rfl⟩ := mem_blocked he
  exact ⟨Nat.zero_le 2, height_texts_le names⟩

theorem map?_blockedToValue (blocked : Compass (Option (List String))) :
    Value.map? Orientation.ofValue? (Value.list? Value.text?) room (blockedToValue blocked) =
      some (Orientation.all.filterMap fun o =>
        (blocked.get o).map fun names => (o, names)) := by
  rw [blockedToValue_eq, Value.map?]
  induction Orientation.all with
  | nil => rfl
  | cons o os ih =>
    cases ho : blocked.get o with
    | none =>
      rw [List.filterMap_cons_none (by rw [ho]; rfl), List.filterMap_cons_none (by rw [ho]; rfl)]
      exact ih
    | some names =>
      rw [List.filterMap_cons_some (by rw [ho]; rfl), List.filterMap_cons_some (by rw [ho]; rfl),
        List.mapM_cons, ih]
      dsimp only
      rw [o.ofValue?_toValue, list?_texts]
      rfl

theorem blockedOfValue?_blockedToValue (blocked : Compass (Option (List String))) :
    blockedOfValue? room (blockedToValue blocked) = some blocked := by
  unfold blockedOfValue?
  rw [map?_blockedToValue, Option.map_some]
  congr 1
  refine Compass.ext_get fun p => ?_
  rw [get_foldl_listed, if_pos (Orientation.mem_all p), Compass.get_fill, Option.or_none]

theorem reads_blocked (h : 4 ≤ room) (blocked : Compass (Option (List String))) :
    (Form.same (blockedToValue blocked)).Reads room blockedOfValue? blocked :=
  .same (blockedOfValue?_blockedToValue blocked) ((height_blockedToValue_le blocked).trans h)

/-! ### Formulas -/

theorem FormulaDraft.wellFormed_toValue (f : FormulaDraft) : f.toValue.WellFormed := by
  refine Value.wellFormed_ofFields (List.cons_ne_nil _ _) ?_ ?_
  · simp only [List.forall_mem_cons]
    decide
  · simp only [List.forall_mem_cons]
    exact ⟨.text _, f.zone.wellFormed_toValue, f.line.wellFormed_toValue,
      wellFormed_blockedToValue _, fun _ h => nomatch h⟩

/-- The forms of a formula. -/
def FormulaDraft.form (room : Nat) (f : FormulaDraft) : Form :=
  .ofFields room [
    .required "name" (.same (.text f.name)),
    .required "range" (f.zone.form (room - 2)),
    .required "function" (f.line.form (room - 2)),
    .optional "constraint" (f.blocked = .fill none) (.same (blockedToValue f.blocked))]

theorem FormulaDraft.form_toValue (room : Nat) (f : FormulaDraft) : f.form room true f.toValue :=
  Form.ofFields_of_given <| .whole rfl ⟨rfl, rfl⟩ <| .whole rfl (f.zone.form_toValue _) <|
    .whole rfl (f.line.form_toValue _) <| .whole rfl ⟨rfl, rfl⟩ .nil

theorem FormulaDraft.reads_form (h : 6 ≤ room) (f : FormulaDraft) :
    (f.form room).Reads room FormulaDraft.ofValue? f := by
  have hname : (Form.same (.text f.name)).Reads (room - 2) Value.text? f.name := .text
  have hzone := f.zone.reads_form (show 2 ≤ room - 2 by omega)
  have hline := f.line.reads_form (show 3 ≤ room - 2 by omega)
  have hblocked := reads_blocked (show 4 ≤ room - 2 by omega) f.blocked
  refine .ofFields (by omega) (by simp) ?_ (fun fs flags hflags => ?_) "FormulaDef"
  · simp only [List.forall_mem_cons]
    exact ⟨fun _ => hname.height_le, fun _ => hzone.height_le, fun _ => hline.height_le,
      fun _ => hblocked.height_le, fun _ h => nomatch h⟩
  · obtain _ | ⟨h₁, _ | ⟨h₂, _ | ⟨h₃, _ | ⟨h₄, _ | _⟩⟩⟩⟩ := hflags
    rw [FieldForm.required_of_stands h₁ hname, FieldForm.required_of_stands h₂ hzone,
      FieldForm.required_of_stands h₃ hline, FieldForm.optional_of_stands h₄ hblocked]
    simp [Form.bind_intact, ite_and]

/-! ### Groups and categories -/

theorem GroupDraft.wellFormed_toValue (g : GroupDraft) : g.toValue.WellFormed := by
  refine Value.wellFormed_ofFields (List.cons_ne_nil _ _) ?_ ?_
  · simp only [List.forall_mem_cons]
    decide
  · simp only [List.forall_mem_cons]
    exact ⟨.text _, Value.wellFormed_list TileSpan.wellFormed_toValue _, wellFormed_texts _,
      fun _ h => nomatch h⟩

/-- The forms of a group. -/
def GroupDraft.form (room : Nat) (g : GroupDraft) : Form :=
  .ofFields room [
    .required "name" (.same (.text g.name)),
    .optional "tiles" (g.tiles = []) (.list (TileSpan.form (room - 2 - 2)) g.tiles),
    .optional "formulas" (g.formulas = []) (.same (.list (g.formulas.map .text)))]

theorem GroupDraft.form_toValue (room : Nat) (g : GroupDraft) : g.form room true g.toValue :=
  Form.ofFields_of_given <| .whole rfl ⟨rfl, rfl⟩ <|
    .whole rfl (Form.list_map (TileSpan.form_toValue _) _) <| .whole rfl ⟨rfl, rfl⟩ .nil

theorem GroupDraft.reads_form (h : 7 ≤ room) (g : GroupDraft) :
    (g.form room).Reads room GroupDraft.ofValue? g := by
  have hname : (Form.same (.text g.name)).Reads (room - 2) Value.text? g.name := .text
  have htiles := Form.Reads.list (show 2 ≤ room - 2 by omega)
    (TileSpan.reads_form (show 3 ≤ room - 2 - 2 by omega)) g.tiles
  have hformulas := reads_texts (show 2 ≤ room - 2 by omega) g.formulas
  refine .ofFields (by omega) (by simp) ?_ (fun fs flags hflags => ?_) "GroupDef"
  · simp only [List.forall_mem_cons]
    exact ⟨fun _ => hname.height_le, fun _ => htiles.height_le, fun _ => hformulas.height_le,
      fun _ h => nomatch h⟩
  · obtain _ | ⟨h₁, _ | ⟨h₂, _ | ⟨h₃, _ | _⟩⟩⟩ := hflags
    rw [FieldForm.required_of_stands h₁ hname, FieldForm.optional_of_stands h₂ htiles,
      FieldForm.optional_of_stands h₃ hformulas]
    simp [Form.bind_intact, ite_and]

theorem CategoryDraft.wellFormed_toValue (c : CategoryDraft) : c.toValue.WellFormed := by
  refine Value.wellFormed_ofFields (List.cons_ne_nil _ _) ?_ ?_
  · simp only [List.forall_mem_cons]
    decide
  · simp only [List.forall_mem_cons]
    exact ⟨.text _, c.axis.wellFormed_toValue, Value.wellFormed_ofSigned _,
      Value.wellFormed_ofSigned _, wellFormed_texts _, fun _ h => nomatch h⟩

/-- The forms of a category. -/
def CategoryDraft.form (room : Nat) (c : CategoryDraft) : Form :=
  .ofFields room [
    .required "name" (.same (.text c.name)),
    .required "axis" (.same c.axis.toValue),
    .optional "offset_x" (c.offsetX = 0) (.same (.ofSigned c.offsetX)),
    .optional "offset_y" (c.offsetY = 0) (.same (.ofSigned c.offsetY)),
    .optional "groups" (c.groups = []) (.same (.list (c.groups.map .text)))]

theorem CategoryDraft.form_toValue (room : Nat) (c : CategoryDraft) : c.form room true c.toValue :=
  Form.ofFields_of_given <| .whole rfl ⟨rfl, rfl⟩ <| .whole rfl ⟨rfl, rfl⟩ <|
    .whole rfl ⟨rfl, rfl⟩ <| .whole rfl ⟨rfl, rfl⟩ <| .whole rfl ⟨rfl, rfl⟩ .nil

theorem CategoryDraft.reads_form (h : 4 ≤ room) (c : CategoryDraft) :
    (c.form room).Reads room CategoryDraft.ofValue? c := by
  have hname : (Form.same (.text c.name)).Reads (room - 2) Value.text? c.name := .text
  have hword : ∀ n, (Form.same (.ofSigned n)).Reads (room - 2) Value.signed? n := fun _ => .signed
  have hgroups := reads_texts (show 2 ≤ room - 2 by omega) c.groups
  refine .ofFields (by omega) (by simp) ?_ (fun fs flags hflags => ?_) "CategoryDef"
  · simp only [List.forall_mem_cons]
    exact ⟨fun _ => hname.height_le, fun _ => Axis.reads_toValue.height_le,
      fun _ => (hword _).height_le, fun _ => (hword _).height_le, fun _ => hgroups.height_le,
      fun _ h => nomatch h⟩
  · obtain _ | ⟨h₁, _ | ⟨h₂, _ | ⟨h₃, _ | ⟨h₄, _ | ⟨h₅, _ | _⟩⟩⟩⟩⟩ := hflags
    rw [FieldForm.required_of_stands h₁ hname,
      FieldForm.required_of_stands h₂ Axis.reads_toValue,
      FieldForm.optional_of_stands h₃ (hword _), FieldForm.optional_of_stands h₄ (hword _),
      FieldForm.optional_of_stands h₅ hgroups]
    simp [Form.bind_intact, ite_and]

/-! ### Drafts -/

namespace Draft

theorem wellFormed_toValue (d : Draft) : d.toValue.WellFormed := by
  refine Value.wellFormed_ofFields (List.cons_ne_nil _ _) ?_ ?_
  · simp only [List.forall_mem_cons]
    decide
  · simp only [List.forall_mem_cons]
    exact ⟨Value.wellFormed_list FormulaDraft.wellFormed_toValue _,
      Value.wellFormed_list GroupDraft.wellFormed_toValue _,
      Value.wellFormed_list CategoryDraft.wellFormed_toValue _, fun _ h => nomatch h⟩

/-- The forms of a draft. -/
def form (room : Nat) (d : Draft) : Form :=
  .ofFields room [
    .optional "formulas" (d.formulas = []) (.list (FormulaDraft.form (room - 2 - 2)) d.formulas),
    .optional "groups" (d.groups = []) (.list (GroupDraft.form (room - 2 - 2)) d.groups),
    .optional "categories" (d.categories = [])
      (.list (CategoryDraft.form (room - 2 - 2)) d.categories)]

/-- What is written is a form of the draft. -/
theorem form_toValue (room : Nat) (d : Draft) : d.form room true d.toValue :=
  Form.ofFields_of_given <| .whole rfl (Form.list_map (FormulaDraft.form_toValue _) _) <|
    .whole rfl (Form.list_map (GroupDraft.form_toValue _) _) <|
      .whole rfl (Form.list_map (CategoryDraft.form_toValue _) _) .nil

theorem reads_form (h : 11 ≤ room) (d : Draft) : (d.form room).Reads room ofValue? d := by
  have hformulas := Form.Reads.list (show 2 ≤ room - 2 by omega)
    (FormulaDraft.reads_form (show 6 ≤ room - 2 - 2 by omega)) d.formulas
  have hgroups := Form.Reads.list (show 2 ≤ room - 2 by omega)
    (GroupDraft.reads_form (show 7 ≤ room - 2 - 2 by omega)) d.groups
  have hcategories := Form.Reads.list (show 2 ≤ room - 2 by omega)
    (CategoryDraft.reads_form (show 4 ≤ room - 2 - 2 by omega)) d.categories
  refine .ofFields (by omega) (by simp) ?_ (fun fs flags hflags => ?_) "RulesDef"
  · simp only [List.forall_mem_cons]
    exact ⟨fun _ => hformulas.height_le, fun _ => hgroups.height_le,
      fun _ => hcategories.height_le, fun _ h => nomatch h⟩
  · obtain _ | ⟨h₁, _ | ⟨h₂, _ | ⟨h₃, _ | _⟩⟩⟩ := hflags
    rw [FieldForm.optional_of_stands h₁ hformulas, FieldForm.optional_of_stands h₂ hgroups,
      FieldForm.optional_of_stands h₃ hcategories]
    simp [Form.bind_intact, ite_and]

/-- A text of an intact form reads as the draft, any other does not read. -/
theorem ofText?_of_form {d : Draft} {intact : Bool} {v : Value} (hv : d.form maxHeight intact v)
    {text : String} (htext : v.HasText text) : ofText? text = if intact then some d else none := by
  rw [ofText?, Value.ofText?_of_hasText htext, Option.bind_some]
  exact (d.reads_form (by decide)).read_eq hv

/-- A written draft reads back. -/
theorem ofText?_toText (d : Draft) : ofText? d.toText = some d :=
  ofText?_of_form (d.form_toValue maxHeight) (Value.hasText_toText d.wellFormed_toValue)

end Draft
end Terrain
