import Terrain.Proofs.RuleSet.Closed
import Terrain.Session

/-! ## Coherent sessions

A session keeps every rule set that it has ever made. Each of them is closed, and none shares its
identity with another: two with the same identity are copies. This holds before the first step, and
every step keeps it. -/

namespace Terrain

/-- The category was made with the rule set. Its name, its axis and its place on the body may have
    been changed since then; the rest cannot be. -/
def Category.IssuedBy (r : RuleSet) (c : Category) : Prop :=
  ∃ issued ∈ r.categories, c.groups = issued.groups ∧ c.mask = issued.mask ∧
    c.formulas = issued.formulas ∧ c.rules = issued.rules

theorem Category.IssuedBy.closedIn {r : RuleSet} {c : Category} (h : c.IssuedBy r)
    (hr : r.Closed) : c.ClosedIn r := by
  obtain ⟨issued, hmem, hgroups, hmask, _⟩ := h
  have hissued := hr.categories issued hmem
  constructor
  · rw [hgroups]
    exact hissued.lt_length
  · rw [hgroups, hmask]
    exact hissued.mem_mask

theorem Category.IssuedBy.rules_eq {r : RuleSet} {c : Category} (h : c.IssuedBy r)
    (hr : r.Closed) : c.rules = r.id := by
  obtain ⟨issued, hmem, _, _, _, hrules⟩ := h
  exact hrules.trans (hr.rules_eq issued hmem)

namespace RuleSource

variable {source : RuleSource} {id : RuleSetId} {r : RuleSet}

theorem load_text_eq_ok_iff {text : String} :
    (RuleSource.text text).load id = .ok r ↔
      ∃ d, Draft.ofText? text = some d ∧ d.link id = .ok r := by
  unfold load RuleSet.ofText
  dsimp only
  cases Draft.ofText? text with
  | some d => simp
  | none => simp

/-- What a source makes comes from a draft or is the rule set with no rules. -/
theorem load_cases (h : source.load id = .ok r) :
    r = .empty id ∨ ∃ d : Draft, d.link id = .ok r := by
  cases source with
  | nothing =>
    cases h
    exact .inl rfl
  | text text =>
    obtain ⟨d, _, hd⟩ := load_text_eq_ok_iff.mp h
    exact .inr ⟨d, hd⟩
  | draft d => exact .inr ⟨d, h⟩

theorem load_closed (h : source.load id = .ok r) : r.Closed := by
  obtain rfl | ⟨d, hd⟩ := load_cases h
  · exact RuleSet.empty_closed id
  · exact Draft.link_closed hd

theorem load_id (h : source.load id = .ok r) : r.id = id := by
  obtain rfl | ⟨d, hd⟩ := load_cases h
  · rfl
  · exact Draft.link_id hd

end RuleSource

namespace Session

/-- The rule sets that the session has made, in any slot and also when their slot was filled
    again. -/
def ruleSets (s : Session) : List RuleSet := s.rules.map (·.2)

/-- The session after a list of steps, whatever they answer. -/
def after (s : Session) (steps : List Step) : Session := steps.foldl (fun s st => (s.step st).2) s

structure Coherent (s : Session) : Prop where
  closed : ∀ r ∈ s.ruleSets, r.Closed
  serial_lt : ∀ r ∈ s.ruleSets, r.id.serial < s.nextId.serial
  eq_of_id_eq : ∀ r ∈ s.ruleSets, ∀ q ∈ s.ruleSets, r.id = q.id → r = q

theorem initial_coherent : initial.Coherent where
  closed := fun _ hr => absurd hr List.not_mem_nil
  serial_lt := fun _ hr => absurd hr List.not_mem_nil
  eq_of_id_eq := fun _ hr => absurd hr List.not_mem_nil

variable {s t : Session}

theorem orRefuse_eq_ok {α : Type} {x : Except Fault α} {a : α} (h : orRefuse x = .ok a) :
    x = .ok a := by
  cases x with
  | ok b =>
    cases h
    rfl
  | error fault => cases h

theorem mem_ruleSets_of_slot? {slot : String} {r : RuleSet} (h : s.slot? slot = .ok r) :
    r ∈ s.ruleSets := by
  unfold slot? at h
  split at h
  · rename_i hlookup
    cases h
    obtain ⟨before, later, hrules, _⟩ := List.lookup_eq_some_iff.mp hlookup
    rw [ruleSets, hrules, List.map_append]
    exact List.mem_append_right _ List.mem_cons_self
  · cases h

/-- What a step can do to the rule sets: nothing, make one from a source under the next identity,
    or copy one into a slot. -/
inductive Grows (s t : Session) : Prop
  | same (hsets : t.ruleSets = s.ruleSets) (hnext : t.nextId = s.nextId)
  | made {source : RuleSource} {r : RuleSet} (hload : source.load s.nextId = .ok r)
      (hsets : t.ruleSets = r :: s.ruleSets) (hnext : t.nextId.serial = s.nextId.serial + 1)
  | copied {r : RuleSet} (hmem : r ∈ s.ruleSets) (hsets : t.ruleSets = r :: s.ruleSets)
      (hnext : t.nextId = s.nextId)

theorem bind_eq_ok {α β : Type} {x : Except Refusal α} {k : α → Except Refusal β} {b : β}
    (h : x >>= k = .ok b) : ∃ a, x = .ok a ∧ k a = .ok b := by
  cases x with
  | ok a => exact ⟨a, rfl, h⟩
  | error refusal => cases h

/-- Whether a command may add a rule set. -/
def Command.addsRules : Command → Bool
  | .load .. => true
  | .clone .. => true
  | _ => false

theorem perform_keeps {c : Command} (hc : c.addsRules = false) {answer : Answer}
    (h : s.perform c = .ok (answer, t)) : t.ruleSets = s.ruleSets ∧ t.nextId = s.nextId := by
  cases c with
  | load slot source => cases hc
  | clone source slot => cases hc
  | setLookback lookback =>
    cases h
    exact ⟨rfl, rfl⟩
  | makeMap slot columns rows tileWidth tileHeight tiles =>
    obtain ⟨r, _, h⟩ := bind_eq_ok h
    obtain ⟨m, _, h⟩ := bind_eq_ok h
    cases h
    exact ⟨rfl, rfl⟩
  | makeEmptyMap columns rows tileWidth tileHeight =>
    obtain ⟨m, _, h⟩ := bind_eq_ok h
    cases h
    exact ⟨rfl, rfl⟩
  | makeField slot tileWidth tileHeight shownWidth shownHeight fill cells =>
    obtain ⟨r, _, h⟩ := bind_eq_ok h
    cases h
    exact ⟨rfl, rfl⟩
  | setTile slot cell tile =>
    obtain ⟨r, _, h⟩ := bind_eq_ok h
    obtain ⟨m, _, h⟩ := bind_eq_ok h
    split at h
    · cases h
      exact ⟨rfl, rfl⟩
    · cases h
      exact ⟨rfl, rfl⟩

theorem perform_grows {c : Command} {answer : Answer} (h : s.perform c = .ok (answer, t)) :
    s.Grows t := by
  cases hc : c.addsRules with
  | false =>
    obtain ⟨hsets, hnext⟩ := perform_keeps hc h
    exact .same hsets hnext
  | true =>
    cases c with
    | load slot source =>
      obtain ⟨r, hr, h⟩ := bind_eq_ok h
      cases h
      exact .made (orRefuse_eq_ok hr) rfl rfl
    | clone source slot =>
      obtain ⟨r, hr, h⟩ := bind_eq_ok h
      cases h
      exact .copied (mem_ruleSets_of_slot? hr) rfl rfl
    | _ => cases hc

theorem step_grows (s : Session) (st : Step) : s.Grows (s.step st).2 := by
  cases st with
  | query q => exact .same rfl rfl
  | command c =>
    unfold step
    dsimp only
    split
    · rename_i h
      exact perform_grows h
    · exact .same rfl rfl

theorem Coherent.of_grows (h : s.Coherent) (hgrows : s.Grows t) : t.Coherent := by
  cases hgrows with
  | same hsets hnext =>
    constructor
    · rw [hsets]
      exact h.closed
    · rw [hsets, hnext]
      exact h.serial_lt
    · rw [hsets]
      exact h.eq_of_id_eq
  | @made source r hload hsets hnext =>
    have hid := RuleSource.load_id hload
    -- The identity of the new rule set is past all others.
    have hfresh : ∀ q ∈ s.ruleSets, q.id ≠ r.id := by
      intro q hq heq
      have hlt := h.serial_lt q hq
      rw [heq, hid] at hlt
      exact Nat.lt_irrefl _ hlt
    constructor
    · rw [hsets]
      exact List.forall_mem_cons.mpr ⟨RuleSource.load_closed hload, h.closed⟩
    · rw [hsets, hnext]
      refine List.forall_mem_cons.mpr ⟨?_, fun q hq => Nat.lt_succ_of_lt (h.serial_lt q hq)⟩
      rw [hid]
      exact Nat.lt_succ_self _
    · intro q hq q' hq' heq
      rw [hsets] at hq hq'
      -- Either both are the new one or neither is.
      rcases List.mem_cons.mp hq with hqr | hq
      · rcases List.mem_cons.mp hq' with hqr' | hq'
        · exact hqr.trans hqr'.symm
        · exact absurd (heq.symm.trans (congrArg RuleSet.id hqr)) (hfresh q' hq')
      · rcases List.mem_cons.mp hq' with hqr' | hq'
        · exact absurd (heq.trans (congrArg RuleSet.id hqr')) (hfresh q hq)
        · exact h.eq_of_id_eq q hq q' hq' heq
  | @copied r hmem hsets hnext =>
    -- A copy adds nothing that was not there.
    have hsets : ∀ q ∈ t.ruleSets, q ∈ s.ruleSets := by
      rw [hsets]
      exact List.forall_mem_cons.mpr ⟨hmem, fun _ hq => hq⟩
    constructor
    · intro q hq
      exact h.closed q (hsets q hq)
    · intro q hq
      rw [hnext]
      exact h.serial_lt q (hsets q hq)
    · intro q hq q' hq' heq
      exact h.eq_of_id_eq q (hsets q hq) q' (hsets q' hq') heq

theorem Coherent.after (h : s.Coherent) (steps : List Step) : (s.after steps).Coherent := by
  induction steps generalizing s with
  | nil => exact h
  | cons st steps ih => exact ih (h.of_grows (step_grows s st))

end Session
end Terrain
