import Terrain.Proofs.Ron.Draft
import Terrain.Proofs.RuleSet.FirstFault
import Terrain.Proofs.Session.Numbering
import Terrain.RuleSet.Load

/-! ## Rules from written text

A draft and its text make the same rules or are refused with the same fault, because the text reads
back as the draft. Only a NaN keeps a draft from agreeing with what was read, since a NaN does not
agree with itself. Every other text of the draft reads as it too, however its records are arranged,
and one that has lost a field or nests too deep is malformed. -/

namespace Terrain

open Ron

/-! ### Numeric agreement -/

theorem Binary64.numEq_self (x : Binary64) : x.numEq x = true ↔ x ≠ .nan := by
  cases x with
  | nan => simp [numEq]
  | infinite s => simp [numEq]
  | finite s m e h => simp [numEq]

theorem FormulaDraft.agrees_self (f : FormulaDraft) :
    f.agrees f = true ↔ f.line.slope ≠ .nan ∧ f.line.intercept ≠ .nan := by
  simp [agrees, Line.agrees, Binary64.numEq_self]

namespace Draft

theorem agrees_self (d : Draft) :
    d.agrees d = true ↔ ∀ f ∈ d.formulas, f.line.slope ≠ .nan ∧ f.line.intercept ≠ .nan := by
  have hpairs : ((d.formulas.zip d.formulas).all fun pair => pair.1.agrees pair.2) = true ↔
      ∀ f ∈ d.formulas, f.agrees f = true := by
    induction d.formulas with
    | nil => simp
    | cons f fs ih => simp [ih]
  simp only [agrees, beq_self_eq_true, Bool.true_and, Bool.and_true, hpairs,
    FormulaDraft.agrees_self]

/-! ### Linking under another identity -/

/-- A draft makes the same rules under every identity, or is refused with the same fault. -/
theorem link_under (d : Draft) (id id' : RuleSetId) :
    d.link id' = (d.link id).map (·.reissued id') := by
  cases h : d.link id with
  | error fault =>
    have hforemost := ((d.link_reports id).error_iff fault).mp h
    exact ((d.link_reports id').error_iff fault).mpr hforemost
  | ok r => exact link_reissued h id'

/-! ### The text of a draft -/

/-- The text of a draft reads back as the draft, coefficients bit for bit and a NaN as the NaN. So
    the draft agrees with it unless it holds a NaN, and the text makes the same rules as the draft,
    up to their identity, or is refused with the same fault. -/
theorem read_toText (d : Draft) :
    ofText? d.toText = some d ∧
      (d.readsBack = true ↔
        ∀ f ∈ d.formulas, f.line.slope ≠ .nan ∧ f.line.intercept ≠ .nan) ∧
      ∀ id id', RuleSet.ofText d.toText id' = (d.link id).map (·.reissued id') := by
  refine ⟨d.ofText?_toText, ?_, fun id id' => ?_⟩
  · rw [readsBack, ofText?_toText, Option.any_some, agrees_self]
  · rw [RuleSet.ofText, ofText?_toText]
    exact d.link_under id id'

/-! ### Other texts of a draft -/

/-- The fields of every record in any order, without those that hold their default, and with others
    between them: the text reads as the draft, and makes the same rules or is refused with the same
    fault. It is malformed when a field that has no default was left out, and when a value between
    the fields nests deeper than the levels that are left for it. What is written for the draft is
    one of these texts. -/
theorem read_form {d : Draft} {intact : Bool} {v : Value} (hv : d.form maxHeight intact v)
    {text : String} (htext : v.HasText text) :
    (ofText? text = if intact then some d else none) ∧
      ∀ id id', RuleSet.ofText text id' =
        if intact then (d.link id).map (·.reissued id') else .error .malformedText := by
  have hread := ofText?_of_form hv htext
  refine ⟨hread, fun id id' => ?_⟩
  rw [RuleSet.ofText, hread]
  cases intact with
  | true => exact d.link_under id id'
  | false => rfl

/-- One category with its fields rearranged and a hint before it, and one without any field. -/
theorem read_form_feet :
    ofText? "(hint:Some('x'),categories:[(axis:Y,name:\"feet\")])" =
        some ⟨[], [], [⟨"feet", .y, 0, 0, []⟩]⟩ ∧
      ofText? "(categories:[()])" = none := by
  -- The offsets and the groups hold their defaults.
  have hfeet : CategoryDraft.form (maxHeight - 2 - 2) ⟨"feet", .y, 0, 0, []⟩ true
      (.ofFields [("axis", Axis.y.toValue), ("name", .text "feet")]) :=
    ⟨_, rfl, _, [(.plain "name", .text "feet"), (.plain "axis", Axis.y.toValue)], [],
      .present rfl ⟨rfl, rfl⟩ <| .present rfl ⟨rfl, rfl⟩ <| .absent ⟨rfl, rfl⟩ <|
        .absent ⟨rfl, rfl⟩ <| .absent ⟨rfl, rfl⟩ .nil,
      .swap _ _ _, (fun _ h => nomatch h), rfl⟩
  -- A name and an axis have none.
  have hempty : CategoryDraft.form (maxHeight - 2 - 2) ⟨"feet", .y, 0, 0, []⟩ false .unit :=
    ⟨_, rfl, _, [], [],
      .absent rfl <| .absent rfl <| .absent ⟨rfl, rfl⟩ <| .absent ⟨rfl, rfl⟩ <|
        .absent ⟨rfl, rfl⟩ .nil,
      .refl _, (fun _ h => nomatch h), rfl⟩
  have hwhole : Draft.form maxHeight ⟨[], [], [⟨"feet", .y, 0, 0, []⟩]⟩ true
      (.ofFields [("hint", .wrapped (.character 'x')), ("categories",
        .list [.ofFields [("axis", Axis.y.toValue), ("name", .text "feet")]])]) :=
    ⟨_, rfl, _, [(.plain "categories", _)], [(.plain "hint", .wrapped (.character 'x'))],
      .absent ⟨rfl, rfl⟩ <| .absent ⟨rfl, rfl⟩ <| .present rfl ⟨_, rfl, .cons hfeet .nil⟩ .nil,
      .swap _ _ _, by simp [Word.plain], rfl⟩
  have hlost : Draft.form maxHeight ⟨[], [], [⟨"feet", .y, 0, 0, []⟩]⟩ false
      (.ofFields [("categories", .list [.unit])]) :=
    ⟨_, rfl, _, [(.plain "categories", .list [.unit])], [],
      .absent ⟨rfl, rfl⟩ <| .absent ⟨rfl, rfl⟩ <| .present rfl ⟨_, rfl, .cons hempty .nil⟩ .nil,
      .refl _, (fun _ h => nomatch h), rfl⟩
  refine ⟨(read_form hwhole (.of_toText_eq ?_ (by decide +kernel))).1,
    (read_form hlost (.of_toText_eq ?_ (by decide +kernel))).1⟩
  · refine Value.wellFormed_ofFields (List.cons_ne_nil _ _) ?_ ?_
    · simp only [List.forall_mem_cons]
      decide
    · have hfields : (Value.ofFields [("axis", Axis.y.toValue), ("name", .text "feet")]).WellFormed :=
        Value.wellFormed_ofFields (List.cons_ne_nil _ _)
          (by simp only [List.forall_mem_cons]; decide)
          (List.forall_mem_cons.mpr ⟨Axis.y.wellFormed_toValue,
            List.forall_mem_singleton.mpr (.text "feet")⟩)
      exact List.forall_mem_cons.mpr ⟨.wrapped (.character 'x'),
        List.forall_mem_singleton.mpr (.list (List.forall_mem_singleton.mpr hfields))⟩
  · exact Value.wellFormed_ofFields (List.cons_ne_nil _ _)
      (by simp only [List.forall_mem_cons]; decide)
      (List.forall_mem_singleton.mpr (.list (List.forall_mem_singleton.mpr .unit)))

end Draft

/-- Empty brackets inside so many others. -/
def Ron.Value.nest : Nat → Value
  | 0 => .list []
  | n + 1 => .list [nest n]

theorem Ron.Value.wellFormed_nest (n : Nat) : (nest n).WellFormed := by
  induction n with
  | zero => exact .list fun _ h => nomatch h
  | succ n ih => exact .list (List.forall_mem_singleton.mpr ih)

theorem Ron.Value.height_nest (n : Nat) : (nest n).height = 2 * n + 1 := by
  induction n with
  | zero => rfl
  | succ n ih =>
    rw [nest, height, itemsHeight, itemsHeight, ih]
    omega

/-- A well-formed value may nest too deep to stand between the fields of a draft. -/
theorem Draft.unread_nest :
    (Value.nest 63).WellFormed ∧
      Draft.toValue ⟨[], [], []⟩ =
        .ofFields [("formulas", .list []), ("groups", .list []), ("categories", .list [])] ∧
      Draft.ofText? (Value.toText (.ofFields [("u", .nest 63), ("formulas", .list []),
        ("groups", .list []), ("categories", .list [])])) = none := by
  have hdeep := Value.wellFormed_nest 63
  have hlist : (Value.list []).WellFormed := .list fun _ h => nomatch h
  have hwf : (Value.ofFields [("u", .nest 63), ("formulas", .list []), ("groups", .list []),
      ("categories", .list [])]).WellFormed := by
    refine Value.wellFormed_ofFields (List.cons_ne_nil _ _) ?_ ?_
    · simp only [List.forall_mem_cons]
      decide
    · simp only [List.forall_mem_cons]
      exact ⟨hdeep, hlist, hlist, hlist, fun _ h => nomatch h⟩
  have hheight : maxHeight < (Value.ofFields [("u", .nest 63), ("formulas", .list []),
      ("groups", .list []), ("categories", .list [])]).height := by
    change maxHeight < max ((Value.nest 63).height + 1) _ + 1
    rw [Value.height_nest]
    exact Nat.lt_succ_of_le (Nat.le_max_left _ _)
  refine ⟨hdeep, rfl, ?_⟩
  rw [Draft.ofText?, Value.ofText?_toText hwf, Option.bind_some, Draft.ofValue?,
    Value.fields?_eq rfl, if_neg (Nat.not_le.mpr hheight)]
  rfl

end Terrain
