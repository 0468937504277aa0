import Terrain.Proofs.RuleSet.Linking

/-! ## The first fault

A draft may have many faults at once. Each of them has a place, a list of numbers that says in which
part of the draft it is, and of two places the one comes first that is smaller at the first number
in which they differ. Linking reports the fault at the first place. -/

namespace Terrain

/-! ### Faults and their places -/

/-- What is wrong with a part of a draft, and where. -/
abbrev Faults := List Nat → Fault → Prop

/-- One of the faults, and every other one comes later. -/
structure Foremost (has : Faults) (p : List Nat) (e : Fault) : Prop where
  present : has p e
  before : ∀ {q e'}, has q e' → q = p ∧ e' = e ∨ List.Lex (· < ·) p q

theorem Foremost.unique {has : Faults} {p q : List Nat} {e e' : Fault} (h : Foremost has p e)
    (h' : Foremost has q e') : e = e' := by
  rcases h.before h'.present with ⟨_, heq⟩ | hlt
  · exact heq.symm
  · rcases h'.before h.present with ⟨_, heq⟩ | hgt
    · exact heq
    · exact absurd hgt (List.lex_asymm Nat.lt_asymm hlt)

/-- The computation fails with the foremost of the faults, and succeeds when there is none. -/
def Reports {α : Type} : Except Fault α → Faults → Prop
  | .ok _, has => ∀ p e, ¬has p e
  | .error e, has => ∃ p, Foremost has p e

namespace Reports

variable {α β : Type} {has hasX hasK : Faults}

theorem error_iff {x : Except Fault α} (h : Reports x has) (e : Fault) :
    x = .error e ↔ ∃ p, Foremost has p e := by
  cases x with
  | ok a =>
    constructor
    · intro hx
      cases hx
    · intro ⟨p, hp⟩
      exact absurd hp.present (h p e)
  | error e' =>
    obtain ⟨q, hq⟩ := h
    constructor
    · intro hx
      cases hx
      exact ⟨q, hq⟩
    · intro ⟨p, hp⟩
      exact congrArg Except.error (hq.unique hp)

theorem congr {x : Except Fault α} (h : Reports x hasX) (heq : ∀ p e, hasX p e ↔ hasK p e) :
    Reports x hasK := by
  have hsame : hasX = hasK := funext fun p => funext fun e => propext (heq p e)
  rw [← hsame]
  exact h

/-- Two computations in a row, where the second can have faults at later places only. -/
theorem bind {x : Except Fault α} {k : α → Except Fault β} (hx : Reports x hasX)
    (hk : ∀ a, x = .ok a → Reports (k a) hasK)
    (hlt : ∀ {p q e e'}, hasX p e → hasK q e' → List.Lex (· < ·) p q) :
    Reports (x >>= k) fun p e => hasX p e ∨ hasK p e := by
  cases x with
  | error e =>
    obtain ⟨p, hp⟩ := hx
    refine ⟨p, .inl hp.present, ?_⟩
    rintro q e' (h | h)
    · exact hp.before h
    · exact .inr (hlt hp.present h)
  | ok a => exact (hk a rfl).congr fun p e => (or_iff_right (hx p e)).symm

theorem map {x : Except Fault α} (h : Reports x has) (g : α → β) :
    Reports (x >>= fun a => pure (g a)) has := by
  cases x with
  | error e => exact h
  | ok a => exact h

/-- The places may be written in another way that keeps their order. -/
theorem relocate {x : Except Fault α} (h : Reports x has) {φ : List Nat → List Nat}
    (hφ : ∀ {p q}, List.Lex (· < ·) p q → List.Lex (· < ·) (φ p) (φ q)) :
    Reports x fun p e => ∃ q, p = φ q ∧ has q e := by
  cases x with
  | ok a =>
    rintro _ e ⟨q, rfl, hq⟩
    exact h q e hq
  | error e =>
    obtain ⟨p, hp⟩ := h
    refine ⟨φ p, ⟨p, rfl, hp.present⟩, ?_⟩
    rintro _ e' ⟨q, rfl, hq⟩
    rcases hp.before hq with ⟨rfl, rfl⟩ | hlt
    · exact .inl ⟨rfl, rfl⟩
    · exact .inr (hφ hlt)

/-- A part of a whole, with its number in front of the places. -/
theorem under {x : Except Fault α} (h : Reports x has) (n : Nat) :
    Reports x fun p e => ∃ q, p = n :: q ∧ has q e :=
  h.relocate .cons

theorem within {x : Except Fault Unit} (h : Reports x has) (name : String) :
    Reports (Fault.within name x) fun p e => ∃ cause, e = .inFormula name cause ∧ has p cause := by
  cases x with
  | ok u =>
    rintro p _ ⟨cause, rfl, hcause⟩
    exact h p cause hcause
  | error e =>
    obtain ⟨p, hp⟩ := h
    refine ⟨p, ⟨e, rfl, hp.present⟩, ?_⟩
    rintro q _ ⟨cause, rfl, hcause⟩
    rcases hp.before hcause with ⟨rfl, rfl⟩ | hlt
    · exact .inl ⟨rfl, rfl⟩
    · exact .inr hlt

end Reports

/-! ### Lists of entries -/

/-- The faults of the entries of a list, with the number of the entry in front of their places. -/
inductive InEntry {α : Type} (has : α → Faults) (l : List α) : Faults
  | mk {i : Nat} {a : α} {p : List Nat} {e : Fault} (ha : l[i]? = some a) (h : has a p e) :
      InEntry has l (i :: p) e

/-- The same place one entry further on. -/
def nextEntry : List Nat → List Nat
  | [] => []
  | i :: p => (i + 1) :: p

theorem lex_nextEntry {p q : List Nat} (h : List.Lex (· < ·) p q) :
    List.Lex (· < ·) (nextEntry p) (nextEntry q) := by
  cases h with
  | nil => exact .nil
  | rel hlt => exact .rel (Nat.succ_lt_succ hlt)
  | cons h => exact .cons h

theorem NameMap.Holds.enter_reports {m : NameMap} {names : List String} (hm : m.Holds names)
    (repeated : String → Fault) (name : String) (place : List Nat) :
    Reports (m.enter repeated name names.length) fun p e =>
      name ∈ names ∧ p = place ∧ e = repeated name := by
  rw [hm.enter]
  split
  · rename_i hname
    refine ⟨place, ⟨hname, rfl, rfl⟩, ?_⟩
    rintro _ _ ⟨_, rfl, rfl⟩
    exact .inl ⟨rfl, rfl⟩
  · rename_i hnew
    rintro p e ⟨hname, _⟩
    exact hnew hname

section

variable {α β : Type} {has : α → Faults}

theorem inEntry_cons_iff {a : α} {l : List α} {p : List Nat} {e : Fault} :
    InEntry has (a :: l) p e ↔
      (∃ q, p = 0 :: q ∧ has a q e) ∨ ∃ q, p = nextEntry q ∧ InEntry has l q e := by
  constructor
  · rintro @⟨i, b, p, _, ha, h⟩
    cases i with
    | zero =>
      cases ha
      exact .inl ⟨p, rfl, h⟩
    | succ i => exact .inr ⟨i :: p, rfl, .mk ha h⟩
  · rintro (⟨q, rfl, h⟩ | ⟨_, rfl, ⟨ha, h⟩⟩)
    · exact .mk (i := 0) rfl h
    · exact .mk (i := _ + 1) ha h

theorem lex_inEntry {l : List α} {p q : List Nat} {e : Fault}
    (h : InEntry has l q e) : List.Lex (· < ·) (0 :: p) (nextEntry q) := by
  cases h
  exact .rel (Nat.succ_pos _)

theorem Reports.mapM {f : α → Except Fault β} (h : ∀ a, Reports (f a) (has a)) (l : List α) :
    Reports (l.mapM f) (InEntry has l) := by
  induction l with
  | nil =>
    rintro _ _ ⟨ha, _⟩
    cases ha
  | cons a l ih =>
    rw [List.mapM_cons]
    have hrest : Reports (l.mapM f) _ := ih.relocate lex_nextEntry
    refine (((h a).under 0).bind (fun b _ => hrest.map (b :: ·)) ?_).congr fun p e =>
      inEntry_cons_iff.symm
    rintro _ _ e e' ⟨p, rfl, _⟩ ⟨q, rfl, hq⟩
    exact lex_inEntry hq

theorem Reports.forM {f : α → Except Fault Unit} (h : ∀ a, Reports (f a) (has a)) (l : List α) :
    Reports (l.forM f) (InEntry has l) := by
  induction l with
  | nil =>
    rintro _ _ ⟨ha, _⟩
    cases ha
  | cons a l ih =>
    have hrest : Reports (l.forM f) _ := ih.relocate lex_nextEntry
    refine (((h a).under 0).bind (fun _ _ => hrest) ?_).congr fun p e => inEntry_cons_iff.symm
    rintro _ _ e e' ⟨p, rfl, _⟩ ⟨q, rfl, hq⟩
    exact lex_inEntry hq

/-- The faults of entries with names: at first a name that was seen before or that an earlier entry
    has, and then those of the entry. -/
inductive InNamedEntry (nameOf : α → String) (repeated : String → Fault) (has : α → Faults)
    (seen : List String) (l : List α) : Faults
  | name {i : Nat} {a : α} (ha : l[i]? = some a)
      (h : nameOf a ∈ seen ∨ nameOf a ∈ (l.take i).map nameOf) :
      InNamedEntry nameOf repeated has seen l [i, 0] (repeated (nameOf a))
  | part {i : Nat} {a : α} {p : List Nat} {e : Fault} (ha : l[i]? = some a) (h : has a p e) :
      InNamedEntry nameOf repeated has seen l (i :: 1 :: p) e

variable {nameOf : α → String} {repeated : String → Fault}

theorem inNamedEntry_cons_iff {a : α} {l : List α} {seen : List String} {p : List Nat}
    {e : Fault} :
    InNamedEntry nameOf repeated has seen (a :: l) p e ↔
      (nameOf a ∈ seen ∧ p = [0, 0] ∧ e = repeated (nameOf a)) ∨
        (∃ q, p = 0 :: q ∧ ∃ r, q = 1 :: r ∧ has a r e) ∨
          ∃ q, p = nextEntry q ∧ InNamedEntry nameOf repeated has (seen ++ [nameOf a]) l q e := by
  -- What was seen before the later entries is what was seen before this one, and its name.
  have hnames : ∀ name i, name ∈ seen ++ [nameOf a] ∨ name ∈ (l.take i).map nameOf ↔
      name ∈ seen ∨ name ∈ ((a :: l).take (i + 1)).map nameOf := by
    intro name i
    rw [List.take_succ_cons, List.map_cons, List.mem_append, List.mem_singleton, List.mem_cons,
      or_assoc]
  constructor
  · rintro (@⟨i, b, hb, hname⟩ | @⟨i, b, p, _, hb, h⟩)
    · cases i with
      | zero =>
        cases hb
        rcases hname with hname | hname
        · exact .inl ⟨hname, rfl, rfl⟩
        · cases hname
      | succ i => exact .inr (.inr ⟨[i, 0], rfl, .name hb ((hnames _ i).mpr hname)⟩)
    · cases i with
      | zero =>
        cases hb
        exact .inr (.inl ⟨_, rfl, p, rfl, h⟩)
      | succ i => exact .inr (.inr ⟨i :: 1 :: p, rfl, .part hb h⟩)
  · rintro (⟨hname, rfl, rfl⟩ | ⟨_, rfl, r, rfl, h⟩ |
      ⟨_, rfl, (@⟨i, b, hb, hname⟩ | @⟨i, b, p, _, hb, h⟩)⟩)
    · exact .name (i := 0) rfl (.inl hname)
    · exact .part (i := 0) rfl h
    · exact .name (i := i + 1) hb ((hnames _ i).mp hname)
    · exact .part (i := i + 1) hb h

theorem lex_inNamedEntry {l : List α} {seen : List String} {p q : List Nat} {e : Fault}
    (h : InNamedEntry nameOf repeated has seen l q e) :
    List.Lex (· < ·) (0 :: p) (nextEntry q) := by
  cases h with
  | name => exact .rel (Nat.succ_pos _)
  | part => exact .rel (Nat.succ_pos _)

theorem linkEach_reports {link : α → Except Fault β} (h : ∀ a, Reports (link a) (has a))
    (l : List α) {m : NameMap} {seen : List String} (hm : m.Holds seen) :
    Reports (linkEach nameOf repeated link m seen.length l)
      (InNamedEntry nameOf repeated has seen l) := by
  induction l generalizing m seen with
  | nil =>
    rintro _ _ (⟨ha, _⟩ | ⟨ha, _⟩)
    · cases ha
    · cases ha
  | cons a l ih =>
    rw [linkEach]
    have hrest : ∀ names, m.enter repeated (nameOf a) seen.length = .ok names →
        Reports (linkEach nameOf repeated link names (seen.length + 1) l) fun p e =>
          ∃ q, p = nextEntry q ∧
            InNamedEntry nameOf repeated has (seen ++ [nameOf a]) l q e := by
      intro names hnames
      obtain ⟨hnew, rfl⟩ := (hm.enter_yields repeated (nameOf a) names).mp hnames
      have hentered := ih (hm.insert hnew)
      rw [List.length_append] at hentered
      exact hentered.relocate lex_nextEntry
    -- Its name is the first thing that is looked at, and then its parts.
    refine ((hm.enter_reports repeated (nameOf a) [0, 0]).bind (fun names hnames =>
      (((h a).under 1).under 0).bind (fun b _ => (hrest names hnames).map _) ?_) ?_).congr
        fun p e => inNamedEntry_cons_iff.symm
    · rintro _ _ e e' ⟨_, rfl, _⟩ ⟨q, rfl, hq⟩
      exact lex_inNamedEntry hq
    · rintro _ _ e e' ⟨_, rfl, _⟩ (⟨_, rfl, _, rfl, _⟩ | ⟨q, rfl, hq⟩)
      · exact .cons (.rel Nat.zero_lt_one)
      · exact lex_inNamedEntry hq

end

/-! ### References -/

/-- A reference to a name that is not defined. -/
inductive Dangling (defined : List String) (fault : String → Fault) (references : List String) :
    Faults
  | mk {k : Nat} {name : String} (hname : references[k]? = some name) (h : name ∉ defined) :
      Dangling defined fault references [k] (fault name)

theorem references_report {α : Type} {m : NameMap} {defined : List String}
    (hm : m.Holds defined) (mk : Nat → α) (fault : String → Fault) (references : List String) :
    Reports (references.mapM fun name => match m.get? name with
      | some i => .ok (mk i)
      | none => .error (fault name)) (Dangling defined fault references) := by
  have hone : ∀ name, Reports (match m.get? name with
      | some i => .ok (mk i)
      | none => .error (fault name)) fun p e => name ∉ defined ∧ p = [] ∧ e = fault name := by
    intro name
    rw [hm name]
    by_cases h : name ∈ defined
    · rw [placeOf?_of_mem h]
      intro p e ⟨hname, _⟩
      exact hname h
    · rw [placeOf?_of_not_mem h]
      refine ⟨[], ⟨h, rfl, rfl⟩, ?_⟩
      rintro _ _ ⟨_, rfl, rfl⟩
      exact .inl ⟨rfl, rfl⟩
  refine (Reports.mapM hone references).congr fun p e => ?_
  constructor
  · rintro ⟨hname, h, rfl, rfl⟩
    exact .mk hname h
  · rintro ⟨hname, h⟩
    exact .mk hname ⟨h, rfl, rfl⟩

theorem linkMask_reports {m : NameMap} {groups : List String} (hm : m.Holds groups)
    (owner : String) (names : List String) :
    Reports (linkMask m owner names) (Dangling groups (.unknownGroup owner) names) := by
  rw [linkMask_eq]
  exact (references_report hm GroupId.mk (.unknownGroup owner) names).map _

/-! ### Formulas -/

/-- Bounds in the wrong order. -/
inductive Zone.Has (z : Zone) : Faults
  | x (h : z.maxX < z.minX) : z.Has [0] (.invalidRange .x z.minX z.maxX)
  | y (h : z.maxY < z.minY) : z.Has [1] (.invalidRange .y z.minY z.maxY)

theorem Zone.check_reports (z : Zone) : Reports z.check z.Has := by
  unfold check
  split
  · rename_i hx
    refine ⟨[0], .x hx, ?_⟩
    rintro _ _ (_ | _)
    · exact .inl ⟨rfl, rfl⟩
    · exact .inr (.rel Nat.zero_lt_one)
  · rename_i hx
    split
    · rename_i hy
      refine ⟨[1], .y hy, ?_⟩
      rintro _ _ (hx' | _)
      · exact absurd hx' hx
      · exact .inl ⟨rfl, rfl⟩
    · rename_i hy
      rintro _ _ (hx' | hy')
      · exact hx hx'
      · exact hy hy'

/-- Coefficients that are no numbers. -/
inductive Line.Has (l : Line) : Faults
  | slope (h : l.slope.isFinite = false) : l.Has [0] (.nonFiniteCoefficient .slope l.slope)
  | intercept (h : l.intercept.isFinite = false) :
      l.Has [1] (.nonFiniteCoefficient .intercept l.intercept)

theorem Line.check_reports (l : Line) : Reports l.check l.Has := by
  unfold check
  simp only [Bool.not_eq_true']
  split
  · rename_i ha
    refine ⟨[0], .slope ha, ?_⟩
    rintro _ _ (_ | _)
    · exact .inl ⟨rfl, rfl⟩
    · exact .inr (.rel Nat.zero_lt_one)
  · rename_i ha
    split
    · rename_i hb
      refine ⟨[1], .intercept hb, ?_⟩
      rintro _ _ (ha' | _)
      · exact absurd ha' ha
      · exact .inl ⟨rfl, rfl⟩
    · rename_i hb
      rintro _ _ (ha' | hb')
      · exact ha ha'
      · exact hb hb'

/-- What is wrong with a formula: its zone, its line, and then the names in its constraint,
    direction by direction. -/
inductive FormulaDraft.Has (groups : List String) (f : FormulaDraft) : Faults
  | zone {p : List Nat} {e : Fault} (h : f.zone.Has p e) :
      f.Has groups (0 :: p) (.inFormula f.name e)
  | line {p : List Nat} {e : Fault} (h : f.line.Has p e) :
      f.Has groups (1 :: p) (.inFormula f.name e)
  | blocked {o : Orientation} {p : List Nat} {e : Fault}
      (h : Dangling groups (.unknownGroup f.name) (f.blockedAt o) p e) :
      f.Has groups (2 :: o.index.val :: p) e

theorem FormulaDraft.link_reports {m : NameMap} {groups : List String} (hm : m.Holds groups)
    (f : FormulaDraft) : Reports (f.link m) (f.Has groups) := by
  have hblockers : ∀ o, Reports
      (do let mask ← linkMask m f.name (f.blockedAt o); return (o, mask))
      (Dangling groups (.unknownGroup f.name) (f.blockedAt o)) := fun o =>
    (linkMask_reports hm f.name (f.blockedAt o)).map _
  have hconstraint := Reports.mapM hblockers Orientation.all
  refine (((f.zone.check_reports.within f.name).under 0).bind (fun _ _ =>
    ((f.line.check_reports.within f.name).under 1).bind (fun _ _ =>
      (hconstraint.map _).under 2) ?_) ?_).congr fun p e => ?_
  · rintro _ _ e e' ⟨p, rfl, _⟩ ⟨q, rfl, _⟩
    exact .rel Nat.one_lt_two
  · rintro _ _ e e' ⟨p, rfl, _⟩ (⟨q, rfl, _⟩ | ⟨q, rfl, _⟩)
    · exact .rel Nat.zero_lt_one
    · exact .rel Nat.zero_lt_two
  · constructor
    · rintro (⟨q, rfl, _, rfl, h⟩ | ⟨q, rfl, _, rfl, h⟩ | ⟨_, rfl, ⟨ho, h⟩⟩)
      · exact .zone h
      · exact .line h
      · rw [← Orientation.getElem?_all_iff.mp ho]
        exact .blocked h
    · rintro (h | h | h)
      · exact .inl ⟨_, rfl, _, rfl, h⟩
      · exact .inr (.inl ⟨_, rfl, _, rfl, h⟩)
      · exact .inr (.inr ⟨_, rfl, .mk (Orientation.getElem?_all_iff.mpr rfl) h⟩)

/-! ### Groups and categories -/

/-- What is wrong with a group: the spans with their ends in the wrong order, and then the names of
    its formulas. -/
inductive GroupDraft.Has (formulas : List String) (g : GroupDraft) : Faults
  | span {k : Nat} {sheet first last : UInt32} (hspan : g.tiles[k]? = some (.run sheet first last))
      (h : last < first) : g.Has formulas [0, k] (.invalidTileSpan g.name first last)
  | formula {p : List Nat} {e : Fault}
      (h : Dangling formulas (.unknownFormula g.name) g.formulas p e) : g.Has formulas (1 :: p) e

theorem TileSpan.check_reports (owner : String) (span : TileSpan) :
    Reports (span.check owner) fun p e => ∃ sheet first last, span = .run sheet first last ∧
      last < first ∧ p = [] ∧ e = .invalidTileSpan owner first last := by
  cases span with
  | single sheet index =>
    rintro p e ⟨_, _, _, h, _⟩
    cases h
  | run sheet first last =>
    unfold check
    dsimp only
    split
    · rename_i h
      refine ⟨[], ⟨sheet, first, last, rfl, h, rfl, rfl⟩, ?_⟩
      rintro _ _ ⟨_, _, _, heq, _, rfl, rfl⟩
      cases heq
      exact .inl ⟨rfl, rfl⟩
    · rename_i h
      rintro p e ⟨_, _, _, heq, hlt, _⟩
      cases heq
      exact h hlt

theorem GroupDraft.link_reports {m : NameMap} {formulas : List String} (hm : m.Holds formulas)
    (g : GroupDraft) : Reports (g.link m) (g.Has formulas) := by
  have hspans := Reports.forM (TileSpan.check_reports g.name) g.tiles
  have hformulas := (references_report hm FormulaId.mk (.unknownFormula g.name)
    g.formulas).map (Group.mk g.name g.tiles)
  refine ((hspans.under 0).bind (fun _ _ => hformulas.under 1) ?_).congr fun p e => ?_
  · rintro _ _ e e' ⟨p, rfl, _⟩ ⟨q, rfl, _⟩
    exact .rel Nat.zero_lt_one
  · constructor
    · rintro (⟨_, rfl, ⟨hspan, ⟨_, _, _, rfl, h, rfl, rfl⟩⟩⟩ | ⟨q, rfl, h⟩)
      · exact .span hspan h
      · exact .formula h
    · rintro (⟨hspan, h⟩ | h)
      · exact .inl ⟨_, rfl, .mk hspan ⟨_, _, _, rfl, h, rfl, rfl⟩⟩
      · exact .inr ⟨_, rfl, h⟩

theorem CategoryDraft.link_reports {m : NameMap} {names : List String} (hm : m.Holds names)
    (groups : List Group) (id : RuleSetId) (c : CategoryDraft) :
    Reports (c.link m groups id) (Dangling names (.unknownGroup c.name) c.groups) := by
  rw [link_eq]
  exact (references_report hm GroupId.mk (.unknownGroup c.name) c.groups).map _

/-! ### Drafts -/

namespace Draft

variable {d : Draft}

/-- Everything that is wrong with a draft: too many groups, repeated names of groups, and then
    formula by formula, group by group and category by category. A formula and a category are
    looked at after their names. -/
inductive Has (d : Draft) : Faults
  | groupCount (h : GroupSet.capacity < d.groups.length) :
      d.Has [0] (.tooManyGroups d.groups.length)
  | groupName {i : Nat} {g : GroupDraft} (hg : d.groups[i]? = some g)
      (h : g.name ∈ (d.groups.take i).map (·.name)) : d.Has [1, i, 0] (.duplicateGroup g.name)
  | formulaName {i : Nat} {f : FormulaDraft} (hf : d.formulas[i]? = some f)
      (h : f.name ∈ (d.formulas.take i).map (·.name)) : d.Has [2, i, 0] (.duplicateFormula f.name)
  | formula {i : Nat} {f : FormulaDraft} {p : List Nat} {e : Fault} (hf : d.formulas[i]? = some f)
      (h : f.Has d.groupNames p e) : d.Has (2 :: i :: 1 :: p) e
  | group {i : Nat} {g : GroupDraft} {p : List Nat} {e : Fault} (hg : d.groups[i]? = some g)
      (h : g.Has d.formulaNames p e) : d.Has (3 :: i :: p) e
  | categoryName {i : Nat} {c : CategoryDraft} (hc : d.categories[i]? = some c)
      (h : c.name ∈ (d.categories.take i).map (·.name)) :
      d.Has [4, i, 0] (.duplicateCategory c.name)
  | category {i : Nat} {c : CategoryDraft} {p : List Nat} {e : Fault}
      (hc : d.categories[i]? = some c)
      (h : Dangling d.groupNames (.unknownGroup c.name) c.groups p e) :
      d.Has (4 :: i :: 1 :: p) e

/-- What follows the names of the groups reports the faults of the parts. -/
theorem linkParts_reports (d : Draft) (id : RuleSetId) {names : NameMap}
    (hnames : names.Holds d.groupNames) :
    Reports (d.linkParts id names) fun p e => ∃ n q, p = n :: q ∧ 2 ≤ n ∧ d.Has p e := by
  have hformulas : Reports
      (linkEach (·.name) .duplicateFormula (FormulaDraft.link names) ∅ 0 d.formulas)
      (InNamedEntry (·.name) .duplicateFormula (FormulaDraft.Has d.groupNames) [] d.formulas) :=
    linkEach_reports (FormulaDraft.link_reports hnames) d.formulas NameMap.holds_empty
  have hgroups : ∀ formulas, linkEach (·.name) .duplicateFormula (FormulaDraft.link names) ∅ 0
      d.formulas = .ok formulas → Reports (d.groups.mapM (GroupDraft.link formulas.names))
        (InEntry (GroupDraft.Has d.formulaNames) d.groups) := by
    intro formulas h
    obtain ⟨⟨hnodup, _⟩, rfl⟩ := (linkEach_empty_yields _ .duplicateFormula
      (FormulaDraft.link_yields hnames) d.formulas formulas).mp h
    exact Reports.mapM (GroupDraft.link_reports (NameMap.holds_insertAll hnodup)) d.groups
  have hcategories : ∀ groups, Reports
      (linkEach (·.name) .duplicateCategory (CategoryDraft.link names groups id) ∅ 0 d.categories)
      (InNamedEntry (·.name) .duplicateCategory
        (fun c => Dangling d.groupNames (.unknownGroup c.name) c.groups) [] d.categories) :=
    fun groups =>
      linkEach_reports (CategoryDraft.link_reports hnames groups id) d.categories
        NameMap.holds_empty
  refine ((hformulas.under 2).bind (fun formulas h => ((hgroups formulas h).under 3).bind
    (fun groups _ => ((hcategories groups).map _).under 4) ?_) ?_).congr fun p e => ?_
  · rintro _ _ e e' ⟨p, rfl, _⟩ ⟨q, rfl, _⟩
    exact .rel (by decide)
  · rintro _ _ e e' ⟨p, rfl, _⟩ (⟨q, rfl, _⟩ | ⟨q, rfl, _⟩)
    · exact .rel (by decide)
    · exact .rel (by decide)
  · constructor
    · rintro (⟨_, rfl, h⟩ | ⟨_, rfl, ⟨hg, h⟩⟩ | ⟨_, rfl, h⟩)
      · refine ⟨2, _, rfl, by decide, ?_⟩
        rcases h with ⟨hf, h⟩ | ⟨hf, h⟩
        · exact .formulaName hf (h.resolve_left List.not_mem_nil)
        · exact .formula hf h
      · exact ⟨3, _, rfl, by decide, .group hg h⟩
      · refine ⟨4, _, rfl, by decide, ?_⟩
        rcases h with ⟨hc, h⟩ | ⟨hc, h⟩
        · exact .categoryName hc (h.resolve_left List.not_mem_nil)
        · exact .category hc h
    · rintro ⟨n, q, heq, hn, h⟩
      cases h with
      | groupCount h =>
        cases heq
        exact absurd hn (by decide)
      | groupName hg h =>
        cases heq
        exact absurd hn (by decide)
      | formulaName hf h => exact .inl ⟨_, rfl, .name hf (.inr h)⟩
      | formula hf h => exact .inl ⟨_, rfl, .part hf h⟩
      | group hg h => exact .inr (.inl ⟨_, rfl, .mk hg h⟩)
      | categoryName hc h => exact .inr (.inr ⟨_, rfl, .name hc (.inr h)⟩)
      | category hc h => exact .inr (.inr ⟨_, rfl, .part hc h⟩)

theorem groupNames_report (d : Draft) :
    Reports (linkEach (·.name) .duplicateGroup .ok ∅ 0 d.groups) fun p e => d.Has (1 :: p) e := by
  have hnothing : ∀ g : GroupDraft, Reports (.ok g) fun _ _ => False := fun _ _ _ h => h
  refine (linkEach_reports hnothing d.groups NameMap.holds_empty).congr fun p e => ?_
  constructor
  · rintro (@⟨i, g, hg, h⟩ | ⟨_, ⟨⟩⟩)
    exact .groupName hg (h.resolve_left List.not_mem_nil)
  · intro h
    cases h with
    | groupName hg h => exact .name hg (.inr h)

/-- With few enough groups, what is wrong is in their names or in the parts. -/
theorem has_iff_of_groups_le (hgroups : d.groups.length ≤ GroupSet.capacity) {p : List Nat}
    {e : Fault} :
    d.Has p e ↔ (∃ q, p = 1 :: q ∧ d.Has (1 :: q) e) ∨ ∃ n q, p = n :: q ∧ 2 ≤ n ∧ d.Has p e := by
  constructor
  · intro h
    cases h with
    | groupCount h => exact absurd hgroups (Nat.not_le.mpr h)
    | groupName hg h => exact .inl ⟨_, rfl, .groupName hg h⟩
    | formulaName hf h => exact .inr ⟨2, _, rfl, by decide, .formulaName hf h⟩
    | formula hf h => exact .inr ⟨2, _, rfl, by decide, .formula hf h⟩
    | group hg h => exact .inr ⟨3, _, rfl, by decide, .group hg h⟩
    | categoryName hc h => exact .inr ⟨4, _, rfl, by decide, .categoryName hc h⟩
    | category hc h => exact .inr ⟨4, _, rfl, by decide, .category hc h⟩
  · rintro (⟨q, rfl, h⟩ | ⟨_, _, _, _, h⟩)
    · exact h
    · exact h

theorem linkNamed_reports (d : Draft) (id : RuleSetId) : Reports (d.linkNamed id) d.Has := by
  unfold linkNamed
  dsimp only
  split
  · rename_i hmany
    refine ⟨[0], .groupCount hmany, ?_⟩
    intro _ _ h
    cases h with
    | groupCount h => exact .inl ⟨rfl, rfl⟩
    | groupName | formulaName | formula | group | categoryName | category =>
      exact .inr (.rel (Nat.succ_pos _))
  · rename_i hfew
    refine ((d.groupNames_report.under 1).bind (fun named h => d.linkParts_reports id ?_) ?_).congr
      fun p e => (has_iff_of_groups_le (Nat.not_lt.mp hfew)).symm
    · obtain ⟨⟨hnodup, _⟩, rfl⟩ := (linkEach_empty_yields _ .duplicateGroup
        (fun g => .ok g trivial) d.groups named).mp h
      exact NameMap.holds_insertAll hnodup
    · rintro _ _ e e' ⟨p, rfl, _⟩ ⟨n, q, rfl, hn, _⟩
      exact .rel hn

theorem link_reports (d : Draft) (id : RuleSetId) : Reports (d.link id) d.Has :=
  (d.linkNamed_reports id).map NamedRules.rules

/-- A draft is refused with the foremost of its faults, and with no other. -/
theorem link_error_iff_foremost (d : Draft) (id : RuleSetId) (e : Fault) :
    d.link id = .error e ↔ ∃ p, Foremost d.Has p e :=
  (d.link_reports id).error_iff e

end Draft

end Terrain
