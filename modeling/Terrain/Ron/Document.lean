import Terrain.Ron.Value

/-! ## Documents

A document is one value, perhaps behind lines that name extensions of the format. Only one of the
known extensions changes how the values read here are written: behind the word of a wrapped value
it lets the brackets be left out. -/

namespace Terrain.Ron

/-- An extension of the format. -/
inductive Extension where
  | unwrapNewtypes
  | implicitSome
  | unwrapVariantNewtypes
  deriving DecidableEq, Inhabited

/-- The extension of a name. -/
def Extension.ofName? : String → Option Extension
  | "unwrap_newtypes" => some .unwrapNewtypes
  | "implicit_some" => some .implicitSome
  | "unwrap_variant_newtypes" => some .unwrapVariantNewtypes
  | _ => none

/-- A list of extensions up to its closing brackets, and what follows them. The list is not empty
    and may end in a comma. -/
def extensions? : List Token → Option (List Extension × List Token)
  | .word w :: .comma :: .closing .round :: .closing .square :: ts =>
    (Extension.ofName? w.name).map fun e => ([e], ts)
  | .word w :: .comma :: ts => do
    let e ← Extension.ofName? w.name
    let (es, ts) ← extensions? ts
    return (e :: es, ts)
  | .word w :: .closing .round :: .closing .square :: ts =>
    (Extension.ofName? w.name).map fun e => ([e], ts)
  | _ => none

theorem extensions?_length {ts rest : List Token} {es : List Extension}
    (h : extensions? ts = some (es, rest)) : rest.length < ts.length := by
  fun_induction extensions? ts generalizing es rest with
  | case1 w ts =>
    simp only [Option.map_eq_some_iff, Prod.mk.injEq] at h
    obtain ⟨_, _, _, rfl⟩ := h
    simp only [List.length_cons]
    omega
  | case2 w ts _ ih =>
    simp only [Option.bind_eq_bind, Option.bind_eq_some_iff, Option.pure_def, Option.some.injEq,
      Prod.mk.injEq, Prod.exists] at h
    obtain ⟨_, _, _, _, hts, _, rfl⟩ := h
    have := ih hts
    simp only [List.length_cons]
    omega
  | case3 w ts =>
    simp only [Option.map_eq_some_iff, Prod.mk.injEq] at h
    obtain ⟨_, _, _, rfl⟩ := h
    simp only [List.length_cons]
    omega
  | case4 => cases h

/-- The extensions that the first lines of a document name, and what follows those lines. -/
def header? : List Token → Option (List Extension × List Token)
  | .hash :: .bang :: .opening .square :: .word w :: .opening .round :: ts =>
    if w = .plain "enable" then
      match h : extensions? ts with
      | some (es, rest) =>
        have := extensions?_length h
        (header? rest).map fun (more, rest) => (es ++ more, rest)
      | none => none
    else none
  | .hash :: _ => none
  | ts => some ([], ts)
termination_by ts => ts.length
decreasing_by simp only [List.length_cons]; omega

/-- The value of a document. -/
def Value.ofText? (text : String) : Option Value := do
  let ts ← Token.all? text.toList
  let (extensions, ts) ← header? ts
  Value.ofTokens? (extensions.contains .implicitSome) ts

/-- The text of a value. -/
def Value.toText (v : Value) : String := String.ofList v.render

end Terrain.Ron
