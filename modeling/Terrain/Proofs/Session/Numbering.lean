import Mathlib.Data.List.TakeWhile
import Mathlib.Logic.Function.Basic
import Terrain.Proofs.RuleSet.Identity
import Terrain.Proofs.RuleSet.ReadBack

/-! ## Numbering in sessions

A session numbers the rule sets that it has made one after the other. In the registry a failure and a
map without pictures take a number too. This cannot be told from inside: the steps of a session are
steps of a registry, which holds the rule sets of the session in their order, and two of them have
the same identity in the one exactly if they have it in the other. -/

namespace Terrain

/-! ### Identities do not matter to a construction -/

theorem Draft.link_reissued {d : Draft} {id : RuleSetId} {r : RuleSet} (h : d.link id = .ok r)
    (id' : RuleSetId) : d.link id' = .ok (r.reissued id') := by
  obtain ⟨hd, rfl⟩ := link_eq_ok_iff.mp h
  rw [linked_reissued]
  exact link_eq_ok_iff.mpr ⟨hd, rfl⟩

/-- Under another identity, a construction makes the same rules. -/
theorem RuleSource.load_reissued {source : RuleSource} {id : RuleSetId} {r : RuleSet}
    (h : source.load id = .ok r) (id' : RuleSetId) : source.load id' = .ok (r.reissued id') := by
  cases source with
  | nothing =>
    cases h
    rfl
  | draft d => exact Draft.link_reissued h id'
  | text text =>
    obtain ⟨d, hread, hd⟩ := load_text_eq_ok_iff.mp h
    exact load_text_eq_ok_iff.mpr ⟨d, hread, Draft.link_reissued hd id'⟩

namespace Session

/-! ### Steps of a session in the registry -/

/-- The place of the rule set of a slot among all that the session has made, the oldest first. -/
def place? (s : Session) (slot : String) : Option Nat :=
  match s.rules.dropWhile (slot != ·.1) with
  | [] => none
  | _ :: older => some older.length

/-- What a step does with rule sets. -/
def registrySteps (s : Session) : Step → List Registry.Step
  | .command (.load _ source) => [.construct source]
  | .command (.clone source _) => ((s.place? source).map Registry.Step.copy).toList
  | .command (.makeEmptyMap ..) => [.emptyMap]
  | _ => []

/-- What a list of steps does with rule sets. -/
def registryRun (s : Session) : List Step → List Registry.Step
  | [] => []
  | st :: steps => s.registrySteps st ++ (s.step st).2.registryRun steps

variable {s t : Session}

theorem slot?_cases (s : Session) (slot : String) :
    (s.slot? slot = .error .noSlot ∧ s.place? slot = none) ∨
      ∃ r place, s.slot? slot = .ok r ∧ s.place? slot = some place ∧
        s.ruleSets.reverse[place]? = some r := by
  unfold slot? place?
  cases hlookup : s.rules.lookup slot with
  | none =>
    have hdrop : s.rules.dropWhile (slot != ·.1) = [] :=
      List.dropWhile_eq_nil_iff.mpr (List.lookup_eq_none_iff.mp hlookup)
    rw [hdrop]
    exact .inl ⟨rfl, rfl⟩
  | some r =>
    obtain ⟨newer, older, hrules, hnewer⟩ := List.lookup_eq_some_iff.mp hlookup
    have hdrop : s.rules.dropWhile (slot != ·.1) = (slot, r) :: older := by
      rw [hrules, List.dropWhile_append_of_pos hnewer]
      exact List.dropWhile_cons_of_neg (by simp)
    rw [hdrop]
    refine .inr ⟨r, older.length, rfl, rfl, ?_⟩
    simp [ruleSets, hrules]

theorem step_keeps {c : Command} (hc : c.addsRules = false) :
    (s.step (.command c)).2.ruleSets = s.ruleSets ∧
      (s.step (.command c)).2.nextId = s.nextId := by
  unfold step
  dsimp only
  split
  · rename_i h
    exact perform_keeps hc h
  · exact ⟨rfl, rfl⟩

end Session

/-! ### Steps of the registry -/

namespace Registry

theorem run_snoc (g : Registry) (steps : List Step) (s : Step) :
    g.run (steps ++ [s]) = (g.run steps).step s :=
  List.foldl_concat ..

theorem held_construct {g : Registry} {source : RuleSource} {r : RuleSet}
    (h : source.load g.counter.identity = .ok r) :
    (g.step (.construct source)).held = g.held ++ [⟨r, g.steps⟩] := by
  unfold step
  dsimp only
  rw [h]

theorem held_construct_of_ne {g : Registry} {source : RuleSource}
    (h : ∀ r, source.load g.counter.identity ≠ .ok r) :
    (g.step (.construct source)).held = g.held := by
  unfold step
  dsimp only
  split
  · rename_i r hr
    exact absurd hr (h r)
  · rfl

end Registry

namespace Session

open Registry

/-! ### The same rule sets under other numbers -/

/-- After the steps the registry holds the rule sets of the session, the oldest first, under other
    numbers. No two numbers become one. -/
structure Renumbers (number : Nat → Nat) (s : Session) (steps : List Registry.Step) : Prop where
  injective : ∀ {i j}, i < s.nextId.serial → j < s.nextId.serial → number i = number j → i = j
  le_taken : ∀ {i}, i < s.nextId.serial → number i ≤ taken steps
  held_eq : (Registry.initial.run steps).held.map (·.rules) =
    s.ruleSets.reverse.map fun r => r.reissued ⟨number r.id.serial⟩

variable {number : Nat → Nat} {steps : List Registry.Step} {r : RuleSet}

theorem initial_renumbers : Renumbers id initial [] where
  injective := fun _ _ h => h
  le_taken := fun h => Nat.le_of_lt_succ h
  held_eq := rfl

namespace Renumbers

variable (h : Renumbers number s steps)

include h

/-- Steps that add no rule set may take identities. -/
theorem same {later : List Registry.Step} (hsets : t.ruleSets = s.ruleSets)
    (hnext : t.nextId = s.nextId)
    (hheld : (Registry.initial.run (steps ++ later)).held = (Registry.initial.run steps).held) :
    Renumbers number t (steps ++ later) where
  injective := by
    rw [hnext]
    exact h.injective
  le_taken := by
    intro i hi
    rw [hnext] at hi
    rw [taken_append]
    exact Nat.le_add_right_of_le (h.le_taken hi)
  held_eq := by
    rw [hheld, hsets]
    exact h.held_eq

theorem copied {place : Nat} (hsets : t.ruleSets = r :: s.ruleSets) (hnext : t.nextId = s.nextId)
    (hplace : s.ruleSets.reverse[place]? = some r) :
    Renumbers number t (steps ++ [.copy place]) where
  injective := by
    rw [hnext]
    exact h.injective
  le_taken := by
    intro i hi
    rw [hnext] at hi
    rw [taken_append]
    exact Nat.le_add_right_of_le (h.le_taken hi)
  held_eq := by
    have hcopy : (Registry.initial.run steps).held[place]?.map (·.rules) =
        some (r.reissued ⟨number r.id.serial⟩) := by
      rw [← List.getElem?_map, h.held_eq, List.getElem?_map, hplace]
      rfl
    rw [run_snoc, hsets, List.reverse_cons, List.map_append, ← h.held_eq]
    show List.map _ (_ ++ _) = _
    rw [List.map_append, ← Option.toList_map, hcopy]
    rfl

theorem made {source : RuleSource} (hs : s.Coherent) (hload : source.load s.nextId = .ok r)
    (hsets : t.ruleSets = r :: s.ruleSets) (hnext : t.nextId.serial = s.nextId.serial + 1)
    (hlt : taken (steps ++ [.construct source]) < 2 ^ 64) :
    Renumbers (Function.update number s.nextId.serial (taken steps + 1)) t
      (steps ++ [.construct source]) := by
  have htakes : Registry.Step.takesIdentity (.construct source) = true :=
    RuleSource.takesIdentity_of_load hload
  have htaken : taken (steps ++ [.construct source]) = taken steps + 1 := by
    rw [taken_snoc, htakes]
    rfl
  rw [htaken] at hlt
  have hold : ∀ {i}, i < s.nextId.serial →
      Function.update number s.nextId.serial (taken steps + 1) i = number i := fun hi =>
    Function.update_of_ne (Nat.ne_of_lt hi) _ _
  have hnew := Function.update_self s.nextId.serial (taken steps + 1) number
  constructor
  · intro i j hi hj heq
    rw [hnext] at hi hj
    -- The new number is past all others.
    rcases Nat.lt_succ_iff_lt_or_eq.mp hi with hi | rfl
    · rcases Nat.lt_succ_iff_lt_or_eq.mp hj with hj | rfl
      · rw [hold hi, hold hj] at heq
        exact h.injective hi hj heq
      · rw [hold hi, hnew] at heq
        have hle := h.le_taken hi
        omega
    · rcases Nat.lt_succ_iff_lt_or_eq.mp hj with hj | rfl
      · rw [hnew, hold hj] at heq
        have hle := h.le_taken hj
        omega
      · rfl
  · intro i hi
    rw [hnext] at hi
    rw [htaken]
    rcases Nat.lt_succ_iff_lt_or_eq.mp hi with hi | rfl
    · rw [hold hi]
      exact Nat.le_succ_of_le (h.le_taken hi)
    · rw [hnew]
  · have hfollows := initial_follows.run steps (Nat.lt_of_succ_lt hlt)
    have hidentity : (Registry.initial.run steps).counter.identity = ⟨taken steps + 1⟩ :=
      hfollows.identity_eq hlt
    have hid : r.id = s.nextId := RuleSource.load_id hload
    have hkept : s.ruleSets.reverse.map (fun q => q.reissued
          ⟨Function.update number s.nextId.serial (taken steps + 1) q.id.serial⟩) =
        s.ruleSets.reverse.map fun q => q.reissued ⟨number q.id.serial⟩ := by
      refine List.map_congr_left fun q hq => ?_
      rw [hold (hs.serial_lt q (List.mem_reverse.mp hq))]
    rw [run_snoc, held_construct (RuleSource.load_reissued hload _), List.map_append, h.held_eq,
      hidentity, hsets, List.reverse_cons, List.map_append, hkept, List.map_singleton,
      List.map_singleton, hid, hnew]

theorem load (hs : s.Coherent) (slot : String) (source : RuleSource)
    (hlt : taken (steps ++ [.construct source]) < 2 ^ 64) :
    ∃ number', Renumbers number' (s.step (.command (.load slot source))).2
      (steps ++ [.construct source]) := by
  cases hload : source.load s.nextId with
  | ok r =>
    have hstep : (s.step (.command (.load slot source))).2 =
        { s.store slot r with nextId := ⟨s.nextId.serial + 1⟩ } := by
      simp only [Session.step, perform, hload]
      rfl
    rw [hstep]
    exact ⟨_, h.made hs hload rfl rfl hlt⟩
  | error fault =>
    have hstep : (s.step (.command (.load slot source))).2 = s := by
      simp only [Session.step, perform, hload]
      rfl
    have hne : ∀ id r, source.load id ≠ .ok r := by
      intro id r hr
      cases hload.symm.trans (RuleSource.load_reissued hr s.nextId)
    rw [hstep]
    refine ⟨number, h.same rfl rfl ?_⟩
    rw [run_snoc, held_construct_of_ne (hne _)]

theorem clone (source slot : String) :
    Renumbers number (s.step (.command (.clone source slot))).2
      (steps ++ s.registrySteps (.command (.clone source slot))) := by
  obtain ⟨hslot, hplace⟩ | ⟨r, place, hslot, hplace, hr⟩ := s.slot?_cases source
  · have hstep : (s.step (.command (.clone source slot))).2 = s := by
      simp only [Session.step, perform, hslot]
      rfl
    simp only [registrySteps, hplace]
    rw [hstep]
    exact h.same rfl rfl (by simp)
  · have hstep : (s.step (.command (.clone source slot))).2 = s.store slot r := by
      simp only [Session.step, perform, hslot]
      rfl
    simp only [registrySteps, hplace]
    rw [hstep]
    exact h.copied rfl rfl hr

theorem step (hs : s.Coherent) (st : Step) (hlt : taken (steps ++ s.registrySteps st) < 2 ^ 64) :
    ∃ number', Renumbers number' (s.step st).2 (steps ++ s.registrySteps st) := by
  cases st with
  | query q => exact ⟨number, h.same rfl rfl (by simp [registrySteps])⟩
  | command c =>
    cases hc : c.addsRules with
    | false =>
      obtain ⟨hsets, hnext⟩ := step_keeps (s := s) hc
      refine ⟨number, h.same hsets hnext ?_⟩
      cases c with
      | load slot source => cases hc
      | clone source slot => cases hc
      | makeEmptyMap columns rows tileWidth tileHeight =>
        rw [registrySteps, run_snoc]
        rfl
      | _ => simp [registrySteps]
    | true =>
      cases c with
      | load slot source => exact h.load hs slot source hlt
      | clone source slot => exact ⟨number, h.clone source slot⟩
      | _ => cases hc

theorem run (hs : s.Coherent) (later : List Step)
    (hlt : taken (steps ++ s.registryRun later) < 2 ^ 64) :
    ∃ number', Renumbers number' (s.after later) (steps ++ s.registryRun later) := by
  induction later generalizing s steps number with
  | nil =>
    rw [registryRun, List.append_nil]
    exact ⟨number, h⟩
  | cons st later ih =>
    rw [registryRun, ← List.append_assoc] at hlt ⊢
    have hbefore : taken (steps ++ s.registrySteps st) < 2 ^ 64 := by
      rw [taken_append] at hlt
      omega
    obtain ⟨number', h'⟩ := h.step hs st hbefore
    exact ih h' (hs.of_grows (s.step_grows st)) hlt

theorem rules_eq {i : Nat} {a : Held} (hr : s.ruleSets.reverse[i]? = some r)
    (ha : (Registry.initial.run steps).held[i]? = some a) :
    a.rules = r.reissued ⟨number r.id.serial⟩ := by
  have hget := congrArg (·[i]?) h.held_eq
  simp only [List.getElem?_map, hr, ha, Option.map_some, Option.some.injEq] at hget
  exact hget

/-- Under other numbers the same rule sets have the same identity. -/
theorem id_eq_iff (hs : s.Coherent) {i j : Nat} {q : RuleSet} {a b : Held}
    (hr : s.ruleSets.reverse[i]? = some r) (hq : s.ruleSets.reverse[j]? = some q)
    (ha : (Registry.initial.run steps).held[i]? = some a)
    (hb : (Registry.initial.run steps).held[j]? = some b) :
    a.rules.id = b.rules.id ↔ r.id = q.id := by
  have hlt : ∀ {i : Nat} {r : RuleSet}, s.ruleSets.reverse[i]? = some r →
      r.id.serial < s.nextId.serial := fun hr =>
    hs.serial_lt _ (List.mem_reverse.mp (List.mem_of_getElem? hr))
  rw [h.rules_eq hr ha, h.rules_eq hq hb]
  constructor
  · intro heq
    exact congrArg RuleSetId.mk (h.injective (hlt hr) (hlt hq) (congrArg RuleSetId.serial heq))
  · intro heq
    exact congrArg (fun id => RuleSetId.mk (number id.serial)) heq

end Renumbers

/-- In a session two rule sets have the same identity exactly if they come from the same construction
    of the registry. -/
theorem id_eq_iff_origin_eq (steps : List Step) (h : taken (initial.registryRun steps) < 2 ^ 64)
    {i j : Nat} {r q : RuleSet} {a b : Held}
    (hr : (initial.after steps).ruleSets.reverse[i]? = some r)
    (hq : (initial.after steps).ruleSets.reverse[j]? = some q)
    (ha : (Registry.initial.run (initial.registryRun steps)).held[i]? = some a)
    (hb : (Registry.initial.run (initial.registryRun steps)).held[j]? = some b) :
    r.id = q.id ↔ a.origin = b.origin := by
  obtain ⟨number, hnumber⟩ := initial_renumbers.run initial_coherent steps h
  have hcoherent := initial_coherent.after steps
  have hmade := (initial_follows.run (initial.registryRun steps) h).madeIn
  rw [← hnumber.id_eq_iff hcoherent hr hq ha hb]
  exact (hmade a (List.mem_of_getElem? ha)).id_eq_iff (hmade b (List.mem_of_getElem? hb))

end Session
end Terrain
