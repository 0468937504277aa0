import Terrain.Proofs.Ron.Cutting
import Terrain.Ron.Document

/-! ## The texts of a value

A value may be written in many ways: a comma may stand behind the last item of a list, an empty pair
of brackets may be open to blanks, a text may be quoted or raw, and blanks and comments may stand
between any two tokens. What the program writes is one of these texts. -/

namespace Terrain.Ron

/-- Pieces with commas between them and perhaps one at the end. -/
inductive Commas : List (List Token) → List Token → Prop
  | nil : Commas [] []
  | last (ts : List Token) : Commas [ts] ts
  | cons (ts : List Token) {pieces : List (List Token)} {us : List Token} (h : Commas pieces us) :
      Commas (ts :: pieces) (ts ++ .comma :: us)

theorem commas_nil {us : List Token} (h : Commas [] us) : us = [] := by
  cases h
  rfl

theorem commas_cons {ts us : List Token} {pieces : List (List Token)}
    (h : Commas (ts :: pieces) us) :
    (pieces = [] ∧ us = ts) ∨ ∃ rest, us = ts ++ .comma :: rest ∧ Commas pieces rest := by
  cases h with
  | last => exact .inl ⟨rfl, rfl⟩
  | cons _ h => exact .inr ⟨_, rfl, h⟩

theorem Commas.begins {pieces : List (List Token)} {us : List Token} (h : Commas pieces us)
    (hne : pieces ≠ []) (hpieces : ∀ ts ∈ pieces, Token.Begins ts) : Token.Begins us := by
  cases h with
  | nil => exact absurd rfl hne
  | last => exact hpieces _ List.mem_cons_self
  | cons ts _ => exact (hpieces ts List.mem_cons_self).append _

theorem Commas.joins {pieces : List (List Token)} {us : List Token} (h : Commas pieces us)
    (hpieces : ∀ ts ∈ pieces, Token.Joins ts) : Token.Joins us := by
  induction h with
  | nil => exact .nil
  | last ts => exact hpieces ts List.mem_cons_self
  | cons ts _ ih =>
    exact (hpieces ts List.mem_cons_self).comma
      (ih fun us hus => hpieces us (List.mem_cons_of_mem _ hus))

namespace Value

/-! ### The tokens of a value -/

/-- The tokens that a value may be written with. Brackets around fields have a field between them:
    without one they are a tuple, or a unit if they are one token. -/
inductive Written : Value → List Token → Prop
  | text (s : String) : Written (.text s) [.text s]
  | character (c : Char) : Written (.character c) [.character c]
  | numeral {run : List Char} (h : Numeral.isNumber run = true) :
      Written (.numeral run) [.numeral run]
  | word {w : Word} (h : w.isSome = false) : Written (.word w) [.word w]
  | unit : Written .unit [.unit]
  | wrapped {v : Value} {ts us : List Token} (h : Written v ts) (hcommas : Commas [ts] us) :
      Written (.wrapped v)
        (.word (.plain "Some") :: .opening .round :: us ++ [.closing .round])
  | list {items : List (Value × List Token)} {us : List Token}
      (h : ∀ i ∈ items, Written i.1 i.2) (hcommas : Commas (items.map (·.2)) us) :
      Written (.list (items.map (·.1))) (.opening .square :: us ++ [.closing .square])
  | map {entries : List ((Value × List Token) × Value × List Token)} {us : List Token}
      (hkeys : ∀ e ∈ entries, Written e.1.1 e.1.2) (hvalues : ∀ e ∈ entries, Written e.2.1 e.2.2)
      (hcommas : Commas (entries.map fun e => e.1.2 ++ .colon :: e.2.2) us) :
      Written (.map (entries.map fun e => (e.1.1, e.2.1)))
        (.opening .curly :: us ++ [.closing .curly])
  | named {w : Word} (hw : w.IsName) : Written (.tuple (some w) []) [.word w, .unit]
  | tuple {name : Option Word} {items : List (Value × List Token)} {us : List Token}
      (hname : ∀ w ∈ name, w.IsName) (h : ∀ i ∈ items, Written i.1 i.2)
      (hcommas : Commas (items.map (·.2)) us) :
      Written (.tuple name (items.map (·.1)))
        ((name.map Token.word).toList ++ (.opening .round :: us ++ [.closing .round]))
  | record {name : Option Word} {fields : List (Word × Value × List Token)} {us : List Token}
      (hname : ∀ w ∈ name, w.IsName) (hne : fields ≠ []) (h : ∀ f ∈ fields, Written f.2.1 f.2.2)
      (hcommas : Commas (fields.map fun f => .word f.1 :: .colon :: f.2.2) us) :
      Written (.record name (fields.map fun f => (f.1, f.2.1)))
        ((name.map Token.word).toList ++ (.opening .round :: us ++ [.closing .round]))

/-- A text of the value. -/
def HasText (v : Value) (text : String) : Prop :=
  ∃ ts, v.Written ts ∧ Token.Layout ts text.toList

open Token (Begins Joins)

theorem Written.begins {v : Value} {ts : List Token} (h : v.Written ts) : Begins ts := by
  cases h with
  | text | character | numeral | word | unit | wrapped | list | map | named =>
    exact ⟨_, _, rfl, rfl⟩
  | tuple _ _ _ => exact .named _ rfl _
  | record _ _ _ _ => exact .named _ rfl _

/-! ### Well-formed values -/

/-- A value that is what its text says. Empty brackets without a name in front are a value of their
    own, and so no tuple and no record. -/
inductive WellFormed : Value → Prop
  | text (s : String) : WellFormed (.text s)
  | character (c : Char) : WellFormed (.character c)
  | numeral {run : List Char} : Numeral.IsRun run → WellFormed (.numeral run)
  | word {w : Word} : w.WellFormed → w.isSome = false → WellFormed (.word w)
  | unit : WellFormed .unit
  | wrapped {v : Value} : WellFormed v → WellFormed (.wrapped v)
  | list {items : List Value} : (∀ v ∈ items, WellFormed v) → WellFormed (.list items)
  | map {entries : List (Value × Value)} : (∀ e ∈ entries, WellFormed e.1) →
      (∀ e ∈ entries, WellFormed e.2) → WellFormed (.map entries)
  | tuple {name : Option Word} {items : List Value} : (∀ w ∈ name, w.IsName) →
      (name = none → items ≠ []) → (∀ v ∈ items, WellFormed v) → WellFormed (.tuple name items)
  | record {name : Option Word} {fields : List (Word × Value)} : (∀ w ∈ name, w.IsName) →
      fields ≠ [] → (∀ f ∈ fields, f.1.WellFormed) → (∀ f ∈ fields, WellFormed f.2) →
      WellFormed (.record name fields)

theorem commas_itemTokens (vs : List Value) : Commas (vs.map tokens) (itemTokens vs) := by
  induction vs with
  | nil => exact .nil
  | cons v vs ih =>
    cases vs with
    | nil => exact .last _
    | cons w vs => exact .cons _ ih

theorem commas_entryTokens (es : List (Value × Value)) :
    Commas (es.map fun e => e.1.tokens ++ .colon :: e.2.tokens) (entryTokens es) := by
  induction es with
  | nil => exact .nil
  | cons e es ih =>
    cases es with
    | nil => exact .last _
    | cons e' es => exact .cons _ ih

theorem commas_fieldTokens (fs : List (Word × Value)) :
    Commas (fs.map fun f => .word f.1 :: .colon :: f.2.tokens) (fieldTokens fs) := by
  induction fs with
  | nil => exact .nil
  | cons f fs ih =>
    cases fs with
    | nil => exact .last _
    | cons f' fs => exact .cons _ ih

theorem tokens_tuple (name : Option Word) {items : List Value} (h : items ≠ []) :
    (tuple name items).tokens =
      (name.map Token.word).toList ++
        (.opening .round :: itemTokens items ++ [.closing .round]) := by
  cases items with
  | nil => exact absurd rfl h
  | cons v items => exact List.append_assoc _ _ _

theorem tokens_record (name : Option Word) (fields : List (Word × Value)) :
    (record name fields).tokens =
      (name.map Token.word).toList ++
        (.opening .round :: fieldTokens fields ++ [.closing .round]) :=
  List.append_assoc _ _ _

/-- A well-formed value may be written with its own tokens. -/
theorem written_tokens {v : Value} (hv : v.WellFormed) : v.Written v.tokens := by
  induction hv with
  | text s => exact .text s
  | character c => exact .character c
  | numeral h => exact .numeral h.number
  | word _ hsome => exact .word hsome
  | unit => exact .unit
  | wrapped _ ih => exact .wrapped ih (.last _)
  | @list items _ ih =>
    have h := @Written.list (items.map fun v => (v, v.tokens)) (itemTokens items)
      (List.forall_mem_map.mpr ih) (by rw [List.map_map]; exact commas_itemTokens items)
    simp only [List.map_map, Function.comp_def, List.map_id'] at h
    exact h
  | @map entries _ _ ihk ihv =>
    have h := @Written.map (entries.map fun e => ((e.1, e.1.tokens), e.2, e.2.tokens))
      (entryTokens entries) (List.forall_mem_map.mpr ihk) (List.forall_mem_map.mpr ihv)
      (by rw [List.map_map]; exact commas_entryTokens entries)
    simp only [List.map_map, Function.comp_def, List.map_id'] at h
    exact h
  | @tuple name items hname hne _ ih =>
    by_cases hempty : items = []
    · subst hempty
      cases name with
      | none => exact absurd rfl (hne rfl)
      | some w => exact .named (hname w rfl)
    · have h := @Written.tuple name (items.map fun v => (v, v.tokens)) (itemTokens items) hname
        (List.forall_mem_map.mpr ih) (by rw [List.map_map]; exact commas_itemTokens items)
      simp only [List.map_map, Function.comp_def, List.map_id'] at h
      rw [tokens_tuple name hempty]
      exact h
  | @record name fields hname hne _ _ ih =>
    have h := @Written.record name (fields.map fun f => (f.1, f.2, f.2.tokens))
      (fieldTokens fields) hname (by simpa using hne) (List.forall_mem_map.mpr ih)
      (by rw [List.map_map]; exact commas_fieldTokens fields)
    simp only [List.map_map, Function.comp_def, List.map_id'] at h
    rw [tokens_record]
    exact h

/-! ### What the program writes -/

/-- The tokens of a value may be written with nothing between them. -/
theorem joins_tokens {v : Value} (hv : v.WellFormed) : Joins v.tokens := by
  induction hv with
  | text s => exact .cons (Token.spelled_text s) (fun _ _ => trivial) .nil
  | character c => exact .cons (Token.spelled_character c) (fun _ _ => trivial) .nil
  | numeral h => exact .cons (.numeral h) (fun _ hrest => hrest) .nil
  | word h _ => exact .word h
  | unit => exact .unit
  | wrapped hv ih =>
    exact (Joins.word (by decide)).before rfl
      (ih.enclosed .round fun _ => (written_tokens hv).begins)
  | @list items _ ih =>
    have hitems := (commas_itemTokens items).joins (List.forall_mem_map.mpr ih)
    exact hitems.enclosed .square (fun h => nomatch h)
  | @map entries _ _ ihk ihv =>
    have hentries := (commas_entryTokens entries).joins
      (List.forall_mem_map.mpr fun e he => (ihk e he).colon (ihv e he))
    exact hentries.enclosed .curly (fun h => nomatch h)
  | @tuple name items hname hne hwf ih =>
    by_cases hempty : items = []
    · subst hempty
      exact .named hname rfl .unit
    · have hcommas := commas_itemTokens items
      have hitems := hcommas.joins (List.forall_mem_map.mpr ih)
      have hbegins := hcommas.begins (by simpa using hempty)
        (List.forall_mem_map.mpr fun v hv => (written_tokens (hwf v hv)).begins)
      rw [tokens_tuple name hempty]
      exact .named hname rfl (hitems.enclosed .round fun _ => hbegins)
  | @record name fields hname hne hwords _ ih =>
    have hcommas := commas_fieldTokens fields
    have hfields := hcommas.joins
      (List.forall_mem_map.mpr fun f hf => (Joins.word (hwords f hf)).colon (ih f hf))
    have hbegins := hcommas.begins (by simpa using hne)
      (List.forall_mem_map.mpr fun f _ => ⟨_, _, rfl, rfl⟩)
    rw [tokens_record]
    exact .named hname rfl (hfields.enclosed .round fun _ => hbegins)

/-- What the program writes is a text of the value. -/
theorem hasText_toText {v : Value} (hv : v.WellFormed) : v.HasText v.toText := by
  have h := joins_tokens hv [] [] (.nil .nil) apart_nil
  rw [List.append_nil, List.append_nil] at h
  refine ⟨v.tokens, written_tokens hv, ?_⟩
  rw [toText, String.toList_ofList]
  exact h

theorem HasText.of_toText_eq {v : Value} {text : String} (hv : v.WellFormed)
    (h : v.toText = text) : v.HasText text :=
  h ▸ hasText_toText hv

end Value
end Terrain.Ron
