import Terrain.Proofs.Ron.Value
import Terrain.Ron.Field

/-! ## Reading what was written

The values that writers build are well formed, and every typed reader gets out of them what was
put in, given room for the levels that they nest. -/

namespace Terrain.Ron

namespace Value

/-! ### Words and numbers -/

theorem wellFormed_ofSigned (n : Int32) : (ofSigned n).WellFormed :=
  .numeral (Numeral.isRun_toString_int _)

theorem wellFormed_ofUnsigned (n : UInt32) : (ofUnsigned n).WellFormed :=
  .numeral (Numeral.isRun_toString_nat _)

theorem wellFormed_ofDouble (x : Binary64) : (ofDouble x).WellFormed := by
  cases x with
  | nan => exact .word (by decide) rfl
  | infinite negative =>
    cases negative with
    | false => exact .word (by decide) rfl
    | true => exact .numeral ⟨by decide +kernel, by decide +kernel, List.all_eq_true.mp rfl⟩
  | finite s m e h => exact .numeral (Numeral.isRun_ofDouble s h)

theorem height_ofDouble (x : Binary64) : (ofDouble x).height = 0 := by
  cases x with
  | nan => rfl
  | infinite negative => cases negative <;> rfl
  | finite s m e h => rfl

theorem signed?_ofSigned (room : Nat) (n : Int32) : signed? room (ofSigned n) = some n :=
  Numeral.signed?_toString n

theorem unsigned?_ofUnsigned (room : Nat) (n : UInt32) : unsigned? room (ofUnsigned n) = some n :=
  Numeral.unsigned?_toString n

/-- A double reads back bit for bit; a NaN reads back as the NaN. -/
theorem double?_ofDouble (room : Nat) (x : Binary64) : double? room (ofDouble x) = some x := by
  have hspecial : Numeral.special? "NaN".toList = some .nan ∧
      Numeral.special? "inf".toList = some (.infinite false) := by
    decide +kernel
  cases x with
  | nan => exact hspecial.1
  | infinite negative =>
    cases negative with
    | false => exact hspecial.2
    | true => exact Numeral.double?_ofDouble (.infinite true)
  | finite s m e h => exact Numeral.double?_ofDouble (.finite s m e h)

/-! ### Lists -/

variable {α : Type} {write : α → Value} {read : Reader α} {room bound : Nat}

theorem wellFormed_list (h : ∀ a, (write a).WellFormed) (items : List α) :
    (list (items.map write)).WellFormed := by
  refine .list fun v hv => ?_
  obtain ⟨a, _, rfl⟩ := List.mem_map.mp hv
  exact h a

theorem height_list_le {items : List Value} (h : ∀ v ∈ items, v.height ≤ bound) :
    (list items).height ≤ bound + 2 := by
  rw [height]
  induction items with
  | nil => rw [itemsHeight]; omega
  | cons v items ih =>
    have hv := h v List.mem_cons_self
    have hitems := ih fun w hw => h w (List.mem_cons_of_mem _ hw)
    rw [itemsHeight]
    omega

theorem list?_map (h : ∀ a, read (room - 2) (write a) = some a) (items : List α) :
    list? read room (list (items.map write)) = some items := by
  rw [list?]
  induction items with
  | nil => rfl
  | cons a items ih =>
    rw [List.map_cons, List.mapM_cons, h, ih]
    rfl

/-! ### Maps -/

theorem height_map_le {entries : List (Value × Value)}
    (h : ∀ e ∈ entries, e.1.height ≤ bound ∧ e.2.height ≤ bound) :
    (map entries).height ≤ bound + 2 := by
  rw [height]
  induction entries with
  | nil => rw [entriesHeight]; omega
  | cons e es ih =>
    have he := h e List.mem_cons_self
    have hes := ih fun u hu => h u (List.mem_cons_of_mem _ hu)
    rw [entriesHeight]
    omega

/-! ### Records -/

variable {fs : List (String × Value)}

theorem wellFormed_fields {name : Option Word} (hname : ∀ w ∈ name, w.IsName) (hne : fs ≠ [])
    (hnames : ∀ f ∈ fs, (Word.plain f.1).WellFormed) (hvalues : ∀ f ∈ fs, f.2.WellFormed) :
    (record name (fs.map fun (name, v) => (.plain name, v))).WellFormed := by
  refine .record hname (by simpa using hne) (fun f hf => ?_) fun f hf => ?_
  · obtain ⟨g, hg, rfl⟩ := List.mem_map.mp hf
    exact hnames g hg
  · obtain ⟨g, hg, rfl⟩ := List.mem_map.mp hf
    exact hvalues g hg

theorem wellFormed_ofFields (hne : fs ≠ []) (hnames : ∀ f ∈ fs, (Word.plain f.1).WellFormed)
    (hvalues : ∀ f ∈ fs, f.2.WellFormed) : (ofFields fs).WellFormed :=
  wellFormed_fields (fun _ h => nomatch h) hne hnames hvalues

theorem wellFormed_ofCase {name : String} (hname : (Word.plain name).IsName) (hne : fs ≠ [])
    (hnames : ∀ f ∈ fs, (Word.plain f.1).WellFormed) (hvalues : ∀ f ∈ fs, f.2.WellFormed) :
    (ofCase name fs).WellFormed := by
  refine wellFormed_fields (fun w hw => ?_) hne hnames hvalues
  rw [← Option.some.inj hw]
  exact hname

end Value
end Terrain.Ron
