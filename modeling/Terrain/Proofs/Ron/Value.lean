import Terrain.Proofs.Ron.Written

/-! ## Texts of values read back

The tokens that a value is written with are put together to the value again, whatever follows them,
and so every text of a value is a document of that value. -/

namespace Terrain.Ron.Value

open Token (Begins)

/-! ### Putting together -/

/-- What follows gives a word before it no brackets. -/
def Unbracketed (rest : List Token) : Prop :=
  ∀ t ∈ rest.head?, t ≠ .unit ∧ t ≠ .opening .round

theorem unbracketed_cons {t : Token} (h : t.startsValue = false) (ts : List Token) :
    Unbracketed (t :: ts) := by
  intro t' ht'
  obtain rfl : t = t' := Option.some.inj ht'
  constructor <;> rintro rfl <;> cases h

variable {bare : Bool}

/-- The tokens are put together to the value, whatever follows. The bound is three times the number
    of tokens. -/
def Parses (bare : Bool) (v : Value) (ts : List Token) : Prop :=
  ∀ n rest, 3 * ts.length ≤ n → Unbracketed rest → parse? bare n (ts ++ rest) = some (v, rest)

theorem parseItems?_commas {items : List (Value × List Token)}
    (hbegins : ∀ i ∈ items, Begins i.2) (h : ∀ i ∈ items, Parses bare i.1 i.2) {us : List Token}
    (hus : Commas (items.map (·.2)) us) {n : Nat} (hn : 3 * us.length + 1 ≤ n) (close : Bracket)
    (rest : List Token) :
    parseItems? bare n close (us ++ .closing close :: rest) = some (items.map (·.1), rest) := by
  induction items generalizing us n with
  | nil =>
    rw [commas_nil hus] at hn ⊢
    cases n with
    | zero => cases hn
    | succ n => rw [parseItems?]; exact if_pos rfl
  | cons i items ih =>
    obtain ⟨v, ts⟩ := i
    have hts : Begins ts := hbegins (v, ts) List.mem_cons_self
    have hv : Parses bare v ts := h (v, ts) List.mem_cons_self
    cases n with
    | zero => cases hn
    | succ n =>
      simp only [List.map_cons] at hus
      rcases commas_cons hus with ⟨hempty, rfl⟩ | ⟨us, rfl, hus'⟩
      · obtain rfl := List.map_eq_nil_iff.mp hempty
        rw [parseItems?, if_neg (hts.head?_ne _ close),
          hv n _ (by omega) (unbracketed_cons rfl _)]
        simp
      · rw [List.length_append, List.length_cons] at hn
        have hitems := @ih (fun j hj => hbegins j (List.mem_cons_of_mem _ hj))
          (fun j hj => h j (List.mem_cons_of_mem _ hj)) us hus' n (by omega)
        rw [List.append_assoc, List.cons_append, parseItems?, if_neg (hts.head?_ne _ close),
          hv n _ (by omega) (unbracketed_cons rfl _)]
        dsimp only
        rw [hitems]
        rfl

theorem parseEntries?_commas {entries : List ((Value × List Token) × Value × List Token)}
    (hbegins : ∀ e ∈ entries, Begins e.1.2) (hkeys : ∀ e ∈ entries, Parses bare e.1.1 e.1.2)
    (hvalues : ∀ e ∈ entries, Parses bare e.2.1 e.2.2) {us : List Token}
    (hus : Commas (entries.map fun e => e.1.2 ++ .colon :: e.2.2) us) {n : Nat}
    (hn : 3 * us.length + 1 ≤ n) (rest : List Token) :
    parseEntries? bare n (us ++ .closing .curly :: rest) =
      some (entries.map fun e => (e.1.1, e.2.1), rest) := by
  induction entries generalizing us n with
  | nil =>
    rw [commas_nil hus] at hn ⊢
    cases n with
    | zero => cases hn
    | succ n => rw [parseEntries?]; exact if_pos rfl
  | cons e entries ih =>
    obtain ⟨⟨k, ks⟩, v, ts⟩ := e
    have hks : Begins ks := hbegins ((k, ks), v, ts) List.mem_cons_self
    have hk : Parses bare k ks := hkeys ((k, ks), v, ts) List.mem_cons_self
    have hv : Parses bare v ts := hvalues ((k, ks), v, ts) List.mem_cons_self
    cases n with
    | zero => cases hn
    | succ n =>
      simp only [List.map_cons] at hus
      rcases commas_cons hus with ⟨hempty, rfl⟩ | ⟨us, rfl, hus'⟩
      · obtain rfl := List.map_eq_nil_iff.mp hempty
        rw [List.length_append, List.length_cons] at hn
        rw [List.append_assoc, List.cons_append, parseEntries?, if_neg (hks.head?_ne _ .curly),
          hk n _ (by omega) (unbracketed_cons rfl _)]
        dsimp only
        rw [hv n _ (by omega) (unbracketed_cons rfl _)]
        rfl
      · rw [List.length_append, List.length_append, List.length_cons, List.length_cons] at hn
        have hentries := @ih (fun u hu => hbegins u (List.mem_cons_of_mem _ hu))
          (fun u hu => hkeys u (List.mem_cons_of_mem _ hu))
          (fun u hu => hvalues u (List.mem_cons_of_mem _ hu)) us hus' n (by omega)
        rw [List.append_assoc, List.append_assoc, List.cons_append, List.cons_append,
          parseEntries?, if_neg (hks.head?_ne _ .curly),
          hk n _ (by omega) (unbracketed_cons rfl _)]
        dsimp only
        rw [hv n _ (by omega) (unbracketed_cons rfl _)]
        dsimp only
        rw [hentries]
        rfl

theorem parseFields?_commas {fields : List (Word × Value × List Token)}
    (h : ∀ f ∈ fields, Parses bare f.2.1 f.2.2) {us : List Token}
    (hus : Commas (fields.map fun f => .word f.1 :: .colon :: f.2.2) us) {n : Nat}
    (hn : 3 * us.length + 1 ≤ n) (rest : List Token) :
    parseFields? bare n (us ++ .closing .round :: rest) =
      some (fields.map fun f => (f.1, f.2.1), rest) := by
  induction fields generalizing us n with
  | nil =>
    rw [commas_nil hus] at hn ⊢
    cases n with
    | zero => cases hn
    | succ n => rfl
  | cons f fields ih =>
    obtain ⟨w, v, ts⟩ := f
    have hv : Parses bare v ts := h (w, v, ts) List.mem_cons_self
    cases n with
    | zero => cases hn
    | succ n =>
      simp only [List.map_cons] at hus
      rcases commas_cons hus with ⟨hempty, rfl⟩ | ⟨us, rfl, hus'⟩
      · obtain rfl := List.map_eq_nil_iff.mp hempty
        rw [List.length_cons, List.length_cons] at hn
        rw [List.cons_append, List.cons_append, parseFields?,
          hv n _ (by omega) (unbracketed_cons rfl _)]
        rfl
      · rw [List.length_append, List.length_cons, List.length_cons, List.length_cons] at hn
        have hfields := @ih (fun u hu => h u (List.mem_cons_of_mem _ hu)) us hus' n (by omega)
        rw [List.append_assoc, List.cons_append, List.cons_append, List.cons_append,
          parseFields?, hv n _ (by omega) (unbracketed_cons rfl _)]
        dsimp only
        rw [hfields]
        rfl

/-- Only the fields of a record start with a word and a colon. -/
theorem Written.append_ne_colon {v : Value} {ts : List Token} (h : v.Written ts) {t : Token}
    (ht : t ≠ .colon) (w : Word) (rest us : List Token) :
    ts ++ t :: rest ≠ .word w :: .colon :: us := by
  cases h with
  | word _ => simp [ht]
  | text | character | numeral | unit | wrapped | list | map | named => simp
  | @tuple name => cases name <;> simp
  | @record name => cases name <;> simp

theorem parse?_word {w : Word} (hsome : w.isSome = false) (n : Nat) {rest : List Token}
    (hrest : Unbracketed rest) : parse? bare (n + 1) (.word w :: rest) = some (.word w, rest) := by
  rw [parse?, hsome]
  · split
    · rfl
    · rfl
  · exact fun _ h => absurd rfl (hrest _ (congrArg List.head? h)).2
  · exact fun _ h => absurd rfl (hrest _ (congrArg List.head? h)).1

theorem parse?_some {n : Nat} {ts rest : List Token} {v : Value}
    (h : parseItems? bare n .round ts = some ([v], rest)) :
    parse? bare (n + 1) (.word (.plain "Some") :: .opening .round :: ts) =
      some (.wrapped v, rest) := by
  have hconstant : (Word.plain "Some").isConstant = false := by decide
  have hsome : (Word.plain "Some").isSome = true := by decide
  rw [parse?]
  simp only [hconstant, hsome, Bool.false_eq_true, if_false, if_true]
  rw [h]

theorem parse?_named {name : Option Word} (hname : ∀ w ∈ name, w.IsName) (n : Nat)
    (ts : List Token) :
    parse? bare (n + 1) ((name.map Token.word).toList ++ .opening .round :: ts) =
      parseBracketed? bare n name ts := by
  cases name with
  | none => rfl
  | some w =>
    have hw := hname w rfl
    change parse? bare (n + 1) (.word w :: .opening .round :: ts) = _
    rw [parse?, hw.not_constant, hw.not_some]
    rfl

theorem parseBracketed?_items {items : List (Value × List Token)}
    (hwritten : ∀ i ∈ items, i.1.Written i.2) (h : ∀ i ∈ items, Parses bare i.1 i.2)
    {us : List Token} (hus : Commas (items.map (·.2)) us) {n : Nat}
    (hn : 3 * us.length + 2 ≤ n) (name : Option Word) (rest : List Token) :
    parseBracketed? bare n name (us ++ .closing .round :: rest) =
      some (.tuple name (items.map (·.1)), rest) := by
  have hcolon : ∀ w vs, us ++ .closing .round :: rest ≠ .word w :: .colon :: vs := by
    intro w vs
    cases items with
    | nil =>
      rw [commas_nil hus]
      simp
    | cons i items =>
      have hi := hwritten i List.mem_cons_self
      rcases commas_cons hus with ⟨_, rfl⟩ | ⟨us, rfl, _⟩
      · exact hi.append_ne_colon (by simp) w rest vs
      · rw [List.append_assoc, List.cons_append]
        exact hi.append_ne_colon (by simp) w _ vs
  cases n with
  | zero => cases hn
  | succ n =>
    have hitems := parseItems?_commas (fun i hi => (hwritten i hi).begins) h hus
      (show _ ≤ n by omega) .round rest
    unfold parseBracketed?
    split
    · rename_i heq
      exact absurd heq (hcolon _ _)
    · rw [hitems]
      rfl

theorem parseBracketed?_fields {fields : List (Word × Value × List Token)} (hne : fields ≠ [])
    (h : ∀ f ∈ fields, Parses bare f.2.1 f.2.2) {us : List Token}
    (hus : Commas (fields.map fun f => .word f.1 :: .colon :: f.2.2) us) {n : Nat}
    (hn : 3 * us.length + 2 ≤ n) (name : Option Word) (rest : List Token) :
    parseBracketed? bare n name (us ++ .closing .round :: rest) =
      some (.record name (fields.map fun f => (f.1, f.2.1)), rest) := by
  cases n with
  | zero => cases hn
  | succ n =>
    have hfields := parseFields?_commas h hus (show _ ≤ n by omega) rest
    obtain ⟨w, vs, hcolon⟩ : ∃ w vs, us ++ .closing .round :: rest = .word w :: .colon :: vs := by
      cases fields with
      | nil => exact absurd rfl hne
      | cons f fields => rcases commas_cons hus with ⟨_, rfl⟩ | ⟨us, rfl, _⟩ <;> exact ⟨_, _, rfl⟩
    unfold parseBracketed?
    rw [hcolon] at hfields ⊢
    dsimp only
    rw [hfields]
    rfl

theorem Parses.of_succ {v : Value} {ts : List Token} (hv : v.Written ts)
    (h : ∀ n rest, 3 * ts.length ≤ n + 1 → Unbracketed rest →
      parse? bare (n + 1) (ts ++ rest) = some (v, rest)) : Parses bare v ts := by
  intro n rest hn hrest
  obtain ⟨t, ts, rfl, _⟩ := hv.begins
  cases n with
  | zero =>
    rw [List.length_cons] at hn
    omega
  | succ n => exact h n rest hn hrest

/-- The tokens that a value is written with are put together to it. -/
theorem Written.parses {v : Value} {ts : List Token} (hv : v.Written ts) : Parses bare v ts := by
  induction hv with
  | text s => exact .of_succ (.text s) fun _ _ _ _ => rfl
  | character c => exact .of_succ (.character c) fun _ _ _ _ => rfl
  | unit => exact .of_succ .unit fun _ _ _ _ => rfl
  | numeral h => exact .of_succ (.numeral h) fun _ _ _ _ => if_pos h
  | @word w hsome => exact .of_succ (.word hsome) fun n rest _ hrest => parse?_word hsome n hrest
  | @wrapped v ts us hv hus ih =>
    refine .of_succ (.wrapped hv hus) fun n rest hn hrest => ?_
    rw [List.length_append, List.length_cons, List.length_cons, List.length_singleton] at hn
    have hitems := @parseItems?_commas bare [(v, ts)] (List.forall_mem_singleton.mpr hv.begins)
      (List.forall_mem_singleton.mpr ih) us hus n (by omega) .round rest
    rw [List.append_assoc, List.singleton_append]
    exact parse?_some hitems
  | @list items us hwritten hus ih =>
    refine .of_succ (.list hwritten hus) fun n rest hn hrest => ?_
    rw [List.length_append, List.length_cons, List.length_singleton] at hn
    have hitems := parseItems?_commas (fun i hi => (hwritten i hi).begins) ih hus
      (show _ ≤ n by omega) .square rest
    rw [List.append_assoc, List.singleton_append, List.cons_append, parse?, hitems]
    rfl
  | @map entries us hkeys hvalues hus ihk ihv =>
    refine .of_succ (.map hkeys hvalues hus) fun n rest hn hrest => ?_
    rw [List.length_append, List.length_cons, List.length_singleton] at hn
    have hentries := parseEntries?_commas (fun e he => (hkeys e he).begins) ihk ihv hus
      (show _ ≤ n by omega) rest
    rw [List.append_assoc, List.singleton_append, List.cons_append, parse?, hentries]
    rfl
  | @named w hw =>
    refine .of_succ (.named hw) fun n rest _ _ => ?_
    change parse? bare (n + 1) (.word w :: .unit :: rest) = _
    rw [parse?, hw.not_constant, hw.not_some]
    rfl
  | @tuple name items us hname hwritten hus ih =>
    refine .of_succ (.tuple hname hwritten hus) fun n rest hn _ => ?_
    rw [List.length_append, List.length_append, List.length_cons, List.length_singleton] at hn
    rw [List.append_assoc, List.cons_append, List.cons_append, List.append_assoc,
      List.singleton_append, parse?_named hname]
    exact parseBracketed?_items hwritten ih hus (by omega) name rest
  | @record name fields us hname hne hwritten hus ih =>
    refine .of_succ (.record hname hne hwritten hus) fun n rest hn _ => ?_
    rw [List.length_append, List.length_append, List.length_cons, List.length_singleton] at hn
    rw [List.append_assoc, List.cons_append, List.cons_append, List.append_assoc,
      List.singleton_append, parse?_named hname]
    exact parseBracketed?_fields hne ih hus (by omega) name rest

/-! ### Documents -/

theorem Written.ofTokens? {v : Value} {ts : List Token} (h : v.Written ts) :
    Value.ofTokens? bare ts = some v := by
  have hparses := (h.parses : Parses bare v ts) (3 * ts.length + 1) [] (by omega)
    fun _ h => nomatch h
  rw [List.append_nil] at hparses
  rw [Value.ofTokens?, hparses]

/-- A document without extensions starts with its value. -/
theorem header?_of_begins {ts : List Token} (h : Begins ts) : header? ts = some ([], ts) := by
  obtain ⟨t, us, rfl, hstarts⟩ := h
  rw [header?]
  · rintro w ts heq
    rw [(List.cons.inj heq).1] at hstarts
    cases hstarts
  · rintro ts heq
    rw [(List.cons.inj heq).1] at hstarts
    cases hstarts

/-- Every text of a value is a document of the value. -/
theorem ofText?_of_hasText {v : Value} {text : String} (h : v.HasText text) :
    ofText? text = some v := by
  obtain ⟨ts, hts, hlayout⟩ := h
  unfold ofText?
  rw [Token.all?_layout hlayout, Option.bind_eq_bind, Option.bind_some,
    header?_of_begins hts.begins, Option.bind_eq_bind, Option.bind_some]
  exact hts.ofTokens?

theorem ofText?_toText {v : Value} (hv : v.WellFormed) : ofText? v.toText = some v :=
  ofText?_of_hasText (hasText_toText hv)

end Terrain.Ron.Value
