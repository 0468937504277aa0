import Mathlib.Data.List.Forall2
import Terrain.Proofs.Ron.Field

/-! ## The forms of a record

The fields of a record may come in any order, with others between them that nobody asks for, and a
field that may be left out may be. Such a record reads as what it was written for. It does not read
when a field that has to be there was left out, nor when a field that nobody asks for nests deeper
than there is room for. -/

namespace Terrain.Ron

/-- The values that may stand for something, each with whether it is intact: nothing that has to be
    there was left out, and nothing in it nests too deep. -/
abbrev Form := Bool → Value → Prop

/-- A field of a record. -/
structure FieldForm where
  name : String
  /-- Whether the record is intact without the field, where it may be left out. -/
  absent : Bool → Prop
  /-- What may stand for the field. -/
  form : Form

namespace FieldForm

/-- A field that has to be there. -/
def required (name : String) (form : Form) : FieldForm := ⟨name, fun intact => intact = false, form⟩

/-- A field that may be left out where it holds its default. -/
def optional (name : String) (isDefault : Prop) (form : Form) : FieldForm :=
  ⟨name, fun intact => intact = true ∧ isDefault, form⟩

variable {name : String} {isDefault : Prop} {form : Form}

@[simp] theorem required_name : (required name form).name = name := rfl

@[simp] theorem optional_name : (optional name isDefault form).name = name := rfl

theorem name_ne_of_nodup {f : FieldForm} {known : List FieldForm}
    (h : ((f :: known).map (·.name)).Nodup) : ∀ g ∈ known, g.name ≠ f.name := fun g hg heq =>
  (List.nodup_cons.mp h).1 (List.mem_map.mpr ⟨g, hg, heq⟩)

end FieldForm

/-- The fields in their order, each given or left out. -/
inductive Given : List FieldForm → Bool → List (Word × Value) → Prop
  | nil : Given [] true []
  | absent {f : FieldForm} {known : List FieldForm} {intact rest : Bool}
      {given : List (Word × Value)} (h : f.absent intact) (hs : Given known rest given) :
      Given (f :: known) (intact && rest) given
  | present {f : FieldForm} {known : List FieldForm} {intact rest : Bool}
      {given : List (Word × Value)} {w : Word} {v : Value} (hname : w.name = f.name)
      (h : f.form intact v) (hs : Given known rest given) :
      Given (f :: known) (intact && rest) ((w, v) :: given)

/-- The fields in any order, with other fields between them. -/
def Arranged (known : List FieldForm) (room : Nat) (intact : Bool) (fs : List (Word × Value)) :
    Prop :=
  ∃ kept given unknown, Given known kept given ∧ fs.Perm (given ++ unknown) ∧
    (∀ e ∈ unknown, ∀ f ∈ known, f.name ≠ e.1.name) ∧
    intact = (kept && unknown.all fun e => e.2.height ≤ room)

namespace Form

/-- The value alone. -/
def same (v : Value) : Form := fun intact w => intact = true ∧ w = v

/-- One value for each item. -/
inductive Each {α : Type} (item : α → Form) : List α → Bool → List Value → Prop
  | nil : Each item [] true []
  | cons {a : α} {as : List α} {intact rest : Bool} {v : Value} {vs : List Value}
      (h : item a intact v) (hs : Each item as rest vs) :
      Each item (a :: as) (intact && rest) (v :: vs)

/-- A list of the items in their order. -/
def list {α : Type} (item : α → Form) (items : List α) : Form := fun intact w =>
  ∃ vs, w = .list vs ∧ Each item items intact vs

/-- A record without the name of its type. Its brackets take a level, and each field another. -/
def ofFields (room : Nat) (known : List FieldForm) : Form := fun intact w =>
  ∃ fs, w.record? = some (none, fs) ∧ Arranged known (room - 2) intact fs

/-- A case with fields, which takes one level more than a record. -/
def ofCase (room : Nat) (name : String) (known : List FieldForm) : Form := fun intact w =>
  ∃ fs, w.record? = some (some name, fs) ∧ Arranged known (room - 3) intact fs

/-- What is intact reads as `a`, within the room there is, and what is not intact does not read. -/
structure Reads {α : Type} (form : Form) (room : Nat) (read : Reader α) (a : α) : Prop where
  read_eq {intact : Bool} {v : Value} (h : form intact v) :
    read room v = if intact then some a else none
  height_le {v : Value} (h : form true v) : v.height ≤ room

end Form

/-! ### Values of fields -/

namespace Fields

variable {room : Nat} {fs gs : List (Word × Value)} {name : String}

theorem valuesOf_perm (h : fs.Perm gs) :
    (valuesOf ⟨fs, room⟩ name).Perm (valuesOf ⟨gs, room⟩ name) :=
  (h.filter _).map _

theorem valuesOf_append :
    valuesOf ⟨fs ++ gs, room⟩ name = valuesOf ⟨fs, room⟩ name ++ valuesOf ⟨gs, room⟩ name := by
  simp [valuesOf]

theorem valuesOf_eq_nil (h : ∀ e ∈ fs, name ≠ e.1.name) : valuesOf ⟨fs, room⟩ name = [] := by
  have hnone : fs.filter (·.1.name == name) = [] :=
    List.filter_eq_nil_iff.mpr fun e he => by simpa using Ne.symm (h e he)
  rw [valuesOf, hnone, List.map_nil]

theorem valuesOf_cons_self {w : Word} {v : Value} (hw : w.name = name) :
    valuesOf ⟨(w, v) :: fs, room⟩ name = v :: valuesOf ⟨fs, room⟩ name := by
  simp [valuesOf, hw]

theorem valuesOf_cons_ne {w : Word} {v : Value} (hw : w.name ≠ name) :
    valuesOf ⟨(w, v) :: fs, room⟩ name = valuesOf ⟨fs, room⟩ name := by
  simp [valuesOf, hw]

end Fields

namespace FieldForm

/-- The values given for a field: one of its form, or none where it may be left out. -/
def Stands (f : FieldForm) (intact : Bool) (vs : List Value) : Prop :=
  (∃ v, vs = [v] ∧ f.form intact v) ∨ (vs = [] ∧ f.absent intact)

variable {α : Type} {fs : Fields} {name : String} {form : Form} {read : Reader α} {a : α}
  {intact : Bool}

theorem required_of_stands (h : (required name form).Stands intact (fs.valuesOf name))
    (hform : form.Reads fs.room read a) :
    fs.required name read = if intact then some a else none := by
  unfold Fields.required
  rcases h with ⟨v, hv, hread⟩ | ⟨hnone, rfl⟩
  · rw [hv]
    exact hform.read_eq hread
  · rw [hnone]
    rfl

theorem optional_of_stands {default : α}
    (h : (optional name (a = default) form).Stands intact (fs.valuesOf name))
    (hform : form.Reads fs.room read a) :
    fs.optional name default read = if intact then some a else none := by
  unfold Fields.optional
  rcases h with ⟨v, hv, hread⟩ | ⟨hnone, rfl, hdefault⟩
  · rw [hv]
    exact hform.read_eq hread
  · rw [hnone, hdefault]
    rfl

end FieldForm

namespace Given

variable {known : List FieldForm} {kept : Bool} {given : List (Word × Value)}

theorem valuesOf_eq_nil (h : Given known kept given) {room : Nat} {name : String}
    (hname : ∀ f ∈ known, f.name ≠ name) : Fields.valuesOf ⟨given, room⟩ name = [] := by
  induction h with
  | nil => rfl
  | absent _ _ ih => exact ih fun f hf => hname f (List.mem_cons_of_mem _ hf)
  | present hw _ _ ih =>
    rw [Fields.valuesOf_cons_ne (hw ▸ hname _ List.mem_cons_self)]
    exact ih fun f hf => hname f (List.mem_cons_of_mem _ hf)

/-- Whatever gives each field the values that the given ones do. -/
theorem stands (h : Given known kept given) (hnames : (known.map (·.name)).Nodup) {fs : Fields}
    (hfs : ∀ f ∈ known,
      (fs.valuesOf f.name).Perm (Fields.valuesOf ⟨given, fs.room⟩ f.name)) :
    ∃ flags, List.Forall₂ (fun f intact => f.Stands intact (fs.valuesOf f.name)) known flags ∧
      kept = flags.all id := by
  induction h with
  | nil => exact ⟨[], .nil, rfl⟩
  | @absent f known intact rest given habsent hgiven ih =>
    have hother := FieldForm.name_ne_of_nodup hnames
    obtain ⟨flags, hflags, rfl⟩ := ih (List.nodup_cons.mp hnames).2 fun g hg =>
      hfs g (List.mem_cons_of_mem _ hg)
    have hself := hfs f List.mem_cons_self
    rw [hgiven.valuesOf_eq_nil hother, List.perm_nil] at hself
    exact ⟨intact :: flags, .cons (.inr ⟨hself, habsent⟩) hflags, rfl⟩
  | @present f known intact rest given w v hw hv hgiven ih =>
    have hother := FieldForm.name_ne_of_nodup hnames
    -- The other fields do not see the value that this one is given.
    have hrest : ∀ g ∈ known,
        (fs.valuesOf g.name).Perm (Fields.valuesOf ⟨given, fs.room⟩ g.name) := by
      intro g hg
      have hg' := hfs g (List.mem_cons_of_mem _ hg)
      rw [Fields.valuesOf_cons_ne (hw.trans_ne (hother g hg).symm)] at hg'
      exact hg'
    obtain ⟨flags, hflags, rfl⟩ := ih (List.nodup_cons.mp hnames).2 hrest
    have hself := hfs f List.mem_cons_self
    rw [Fields.valuesOf_cons_self hw, hgiven.valuesOf_eq_nil hother, List.perm_singleton] at hself
    exact ⟨intact :: flags, .cons (.inl ⟨v, hself, hv⟩) hflags, rfl⟩

/-- Given fields that are intact nest as deep as their forms do. -/
theorem height_le (h : Given known kept given) (hkept : kept = true) {bound : Nat}
    (hforms : ∀ f ∈ known, ∀ v, f.form true v → v.height ≤ bound) :
    ∀ e ∈ given, e.2.height ≤ bound := by
  induction h with
  | nil => exact fun _ h => nomatch h
  | absent _ _ ih =>
    exact ih (Bool.and_eq_true_iff.mp hkept).2 fun f hf => hforms f (List.mem_cons_of_mem _ hf)
  | present _ hv _ ih =>
    obtain ⟨rfl, hrest⟩ := Bool.and_eq_true_iff.mp hkept
    exact List.forall_mem_cons.mpr ⟨hforms _ List.mem_cons_self _ hv,
      ih hrest fun f hf => hforms f (List.mem_cons_of_mem _ hf)⟩

end Given

/-! ### Records -/

namespace Value

theorem fieldsHeight_le {fs : List (Word × Value)} {bound : Nat}
    (h : ∀ f ∈ fs, f.2.height ≤ bound) : fieldsHeight fs ≤ bound + 1 := by
  induction fs with
  | nil => exact Nat.zero_le _
  | cons f fs ih =>
    have hf := h f List.mem_cons_self
    have hfs := ih fun g hg => h g (List.mem_cons_of_mem _ hg)
    rw [fieldsHeight]
    omega

theorem lt_fieldsHeight {fs : List (Word × Value)} {f : Word × Value} (hf : f ∈ fs) :
    f.2.height < fieldsHeight fs := by
  induction fs with
  | nil => cases hf
  | cons g fs ih =>
    rw [fieldsHeight]
    rcases List.mem_cons.mp hf with rfl | hf
    · exact Nat.le_max_left _ _
    · exact (ih hf).trans_le (Nat.le_max_right _ _)

variable {v : Value} {name : Option String} {fs : List (Word × Value)}

/-- Only a record without fields can do without a level for its brackets. -/
theorem height_of_record? (hv : v.record? = some (name, fs)) :
    v.height ≤ fieldsHeight fs + 1 ∧ (fs ≠ [] → v.height = fieldsHeight fs + 1) := by
  unfold record? at hv
  split at hv
  · cases hv
    exact ⟨Nat.le_refl _, fun _ => rfl⟩
  · cases hv
    exact ⟨Nat.le_refl _, fun h => absurd rfl h⟩
  · cases hv
    exact ⟨Nat.zero_le _, fun h => absurd rfl h⟩
  · cases hv

theorem height_le_of_record? (hv : v.record? = some (name, fs)) {bound : Nat}
    (h : ∀ f ∈ fs, f.2.height ≤ bound) : v.height ≤ bound + 2 :=
  (height_of_record? hv).1.trans (Nat.succ_le_succ (fieldsHeight_le h))

theorem le_height_of_record? (hv : v.record? = some (name, fs)) {f : Word × Value} (hf : f ∈ fs) :
    f.2.height + 2 ≤ v.height := by
  rw [(height_of_record? hv).2 (List.ne_nil_of_mem hf)]
  exact Nat.succ_le_succ (lt_fieldsHeight hf)

theorem fields?_eq (hv : v.record? = some (none, fs)) (type : String) (room : Nat) :
    v.fields? type room = if v.height ≤ room then some ⟨fs, room - 2⟩ else none := by
  unfold fields?
  rw [hv]
  split <;> simp [guard, *]

theorem case?_eq {name : String} (hv : v.record? = some (some name, fs)) (room : Nat) :
    v.case? room = if v.height + 1 ≤ room then some (name, ⟨fs, room - 3⟩) else none := by
  unfold case?
  rw [hv]
  split <;> simp [guard, *]

end Value

theorem valuesOf_arranged {fs given unknown : List (Word × Value)}
    (hperm : fs.Perm (given ++ unknown)) {name : String} (hname : ∀ e ∈ unknown, name ≠ e.1.name)
    {room : Nat} :
    (Fields.valuesOf ⟨fs, room⟩ name).Perm (Fields.valuesOf ⟨given, room⟩ name) := by
  have h := @Fields.valuesOf_perm room _ _ name hperm
  rwa [Fields.valuesOf_append, Fields.valuesOf_eq_nil hname, List.append_nil] at h

/-- A record whose height is checked before its fields are read. -/
theorem Arranged.outcome {known : List FieldForm} {room : Nat} {intact : Bool}
    {fs : List (Word × Value)} (h : Arranged known room intact fs)
    (hnames : (known.map (·.name)).Nodup)
    (hforms : ∀ f ∈ known, ∀ v, f.form true v → v.height ≤ room) {v : Value}
    {name : Option String} (hv : v.record? = some (name, fs)) {α : Type} {read : Option α} {a : α}
    (hread : ∀ flags,
      List.Forall₂ (fun f intact => f.Stands intact (Fields.valuesOf ⟨fs, room⟩ f.name))
        known flags → read = if flags.all id then some a else none) :
    (if v.height ≤ room + 2 then read else none) = if intact then some a else none := by
  obtain ⟨kept, given, unknown, hgiven, hperm, hunknown, rfl⟩ := h
  obtain ⟨flags, hflags, rfl⟩ := @Given.stands _ _ _ hgiven hnames ⟨fs, room⟩ fun f hf =>
    valuesOf_arranged hperm fun e he => hunknown e he f hf
  rw [hread flags hflags]
  cases hkept : flags.all id with
  | false =>
    -- Without a field that has to be there, it does not matter how deep the others nest.
    exact ite_self none
  | true =>
    cases hshallow : unknown.all fun e => decide (e.2.height ≤ room) with
    | true =>
      have hle : ∀ e ∈ fs, e.2.height ≤ room := by
        intro e he
        rcases List.mem_append.mp (hperm.mem_iff.mp he) with he | he
        · exact hgiven.height_le hkept hforms e he
        · exact of_decide_eq_true (List.all_eq_true.mp hshallow e he)
      rw [if_pos (Value.height_le_of_record? hv hle)]
      rfl
    | false =>
      obtain ⟨e, he, hdeep⟩ := List.all_eq_false.mp hshallow
      have hle := Value.le_height_of_record? hv
        (hperm.mem_iff.mpr (List.mem_append_right given he))
      rw [if_neg (by simp at hdeep; omega)]
      rfl

/-! ### Whole records -/

theorem Given.whole {known : List FieldForm} {f : FieldForm} {given : List (Word × Value)}
    {name : String} {v : Value} (hname : name = f.name) (h : f.form true v)
    (hs : Given known true given) : Given (f :: known) true ((.plain name, v) :: given) :=
  .present hname h hs

namespace Form

variable {known : List FieldForm} {room : Nat} {fs : List (String × Value)}

theorem list_map {α : Type} {item : α → Form} {write : α → Value}
    (h : ∀ a, item a true (write a)) (items : List α) :
    list item items true (.list (items.map write)) := by
  refine ⟨_, rfl, ?_⟩
  induction items with
  | nil => exact .nil
  | cons a items ih => exact .cons (h a) ih

theorem ofFields_of_given
    (h : Given known true (fs.map fun (name, v) => (.plain name, v))) :
    ofFields room known true (Value.ofFields fs) :=
  ⟨_, rfl, true, _, [], h, by rw [List.append_nil], (fun _ h => nomatch h), rfl⟩

theorem ofCase_of_given {name : String}
    (h : Given known true (fs.map fun (name, v) => (.plain name, v))) :
    ofCase room name known true (Value.ofCase name fs) :=
  ⟨_, rfl, true, _, [], h, by rw [List.append_nil], (fun _ h => nomatch h), rfl⟩

end Form

/-! ### Reading forms -/

namespace Form

variable {α : Type} {room : Nat} {a : α}

theorem Reads.same {read : Reader α} {v : Value} (hread : read room v = some a)
    (hheight : v.height ≤ room) : (Form.same v).Reads room read a where
  read_eq := by
    rintro intact w ⟨rfl, rfl⟩
    exact hread
  height_le := by
    rintro w ⟨-, rfl⟩
    exact hheight

/-- A reader that refuses what nests deeper than the room there is. -/
theorem Reads.of_guard {form : Form} {read : Reader α}
    (hread : ∀ {intact v}, form intact v → read room v = if intact then some a else none)
    (hguard : ∀ {v}, form true v → room < v.height → read room v = none) :
    form.Reads room read a where
  read_eq := hread
  height_le {v} hv := by
    by_contra hdeep
    have hsome := hread hv
    rw [hguard hv (Nat.lt_of_not_le hdeep)] at hsome
    cases hsome

/-- Parts that are read one after the other. -/
theorem bind_intact {β : Type} (intact : Bool) (a : α) (f : α → Option β) :
    ((if intact = true then some a else none) >>= f) = if intact = true then f a else none := by
  cases intact <;> rfl

theorem Reads.text {s : String} : (Form.same (.text s)).Reads room Value.text? s :=
  .same rfl (Nat.zero_le room)

theorem Reads.signed {n : Int32} : (Form.same (.ofSigned n)).Reads room Value.signed? n :=
  .same (Value.signed?_ofSigned room n) (Nat.zero_le room)

theorem Reads.unsigned {n : UInt32} : (Form.same (.ofUnsigned n)).Reads room Value.unsigned? n :=
  .same (Value.unsigned?_ofUnsigned room n) (Nat.zero_le room)

theorem Reads.double {x : Binary64} : (Form.same (.ofDouble x)).Reads room Value.double? x :=
  .same (Value.double?_ofDouble room x) ((Value.height_ofDouble x).trans_le (Nat.zero_le room))

namespace Each

variable {item : α → Form} {read : Reader α} {items : List α} {intact : Bool} {vs : List Value}

theorem mapM_eq (hs : Each item items intact vs) (h : ∀ a, (item a).Reads room read a) :
    vs.mapM (read room) = if intact then some items else none := by
  induction hs with
  | nil => rfl
  | @cons a as intact rest v vs hv _ ih =>
    rw [List.mapM_cons, (h a).read_eq hv, ih]
    cases intact <;> cases rest <;> rfl

theorem height_le (hs : Each item items intact vs) (hintact : intact = true)
    (h : ∀ a, (item a).Reads room read a) : ∀ v ∈ vs, v.height ≤ room := by
  induction hs with
  | nil => exact fun _ h => nomatch h
  | @cons a as intact rest v vs hv _ ih =>
    obtain ⟨rfl, hrest⟩ := Bool.and_eq_true_iff.mp hintact
    exact List.forall_mem_cons.mpr ⟨(h a).height_le hv, ih hrest⟩

end Each

theorem Reads.list {item : α → Form} {read : Reader α} (hroom : 2 ≤ room)
    (h : ∀ a, (item a).Reads (room - 2) read a) (items : List α) :
    (Form.list item items).Reads room (Value.list? read) items where
  read_eq := by
    rintro intact w ⟨vs, rfl, hvs⟩
    exact hvs.mapM_eq h
  height_le := by
    rintro w ⟨vs, rfl, hvs⟩
    have hle : (Value.list vs).height ≤ room - 2 + 2 := Value.height_list_le (hvs.height_le rfl h)
    omega

variable {known : List FieldForm}

theorem Reads.ofFields {read : Fields → Option α} (hroom : 2 ≤ room)
    (hnames : (known.map (·.name)).Nodup)
    (hforms : ∀ f ∈ known, ∀ v, f.form true v → v.height ≤ room - 2)
    (hread : ∀ fs flags,
      List.Forall₂ (fun f intact => f.Stands intact (Fields.valuesOf ⟨fs, room - 2⟩ f.name))
        known flags → read ⟨fs, room - 2⟩ = if flags.all id then some a else none)
    (type : String) :
    (Form.ofFields room known).Reads room (fun room v => (v.fields? type room).bind read) a := by
  refine .of_guard ?_ ?_
  · rintro intact v ⟨fs, hv, harranged⟩
    have houtcome := harranged.outcome hnames hforms hv (hread fs)
    rw [Nat.sub_add_cancel hroom] at houtcome
    rw [Value.fields?_eq hv, ← houtcome]
    split <;> rfl
  · rintro v ⟨fs, hv, -⟩ hdeep
    rw [Value.fields?_eq hv, if_neg (by omega)]
    rfl

theorem Reads.ofCase {name : String} {read : String × Fields → Option α} (hroom : 3 ≤ room)
    (hnames : (known.map (·.name)).Nodup)
    (hforms : ∀ f ∈ known, ∀ v, f.form true v → v.height ≤ room - 3)
    (hread : ∀ fs flags,
      List.Forall₂ (fun f intact => f.Stands intact (Fields.valuesOf ⟨fs, room - 3⟩ f.name))
        known flags → read (name, ⟨fs, room - 3⟩) = if flags.all id then some a else none) :
    (Form.ofCase room name known).Reads room (fun room v => (v.case? room).bind read) a := by
  refine .of_guard ?_ ?_
  · rintro intact v ⟨fs, hv, harranged⟩
    have houtcome := harranged.outcome hnames hforms hv (hread fs)
    have hle : v.height + 1 ≤ room ↔ v.height ≤ room - 3 + 2 := by omega
    rw [Value.case?_eq hv, ← houtcome]
    simp only [hle]
    split <;> rfl
  · rintro v ⟨fs, hv, -⟩ hdeep
    rw [Value.case?_eq hv, if_neg (by omega)]
    rfl

end Form
end Terrain.Ron
