import Mathlib.Data.List.TakeDrop
import Terrain.Proofs.RuleSet.Naming
import Terrain.Proofs.Session.Coherent
import Terrain.Registry

/-! ## Identities over a run

The number of an identity tells how many were taken before it. So a rule set in use is known by its
identity: two with the same identity come from the same construction and are equal, and those of two
constructions differ, even if the constructions read the same draft. -/

namespace Terrain

/-! ### Constructions -/

theorem Draft.takesIdentity_of_link {d : Draft} {id : RuleSetId} {r : RuleSet}
    (h : d.link id = .ok r) : d.takesIdentity = true :=
  decide_eq_true (link_eq_ok_iff.mp h).1.groups_le

/-- A construction that succeeds has taken an identity. -/
theorem RuleSource.takesIdentity_of_load {source : RuleSource} {id : RuleSetId} {r : RuleSet}
    (h : source.load id = .ok r) : source.takesIdentity = true := by
  cases source with
  | nothing => rfl
  | draft d => exact Draft.takesIdentity_of_link h
  | text text =>
    obtain ⟨d, hread, hd⟩ := load_text_eq_ok_iff.mp h
    rw [takesIdentity, hread]
    exact Draft.takesIdentity_of_link hd

theorem RuleSource.load_categories_nodup {source : RuleSource} {id : RuleSetId} {r : RuleSet}
    (h : source.load id = .ok r) : (r.categories.map (·.name)).Nodup := by
  obtain rfl | ⟨d, hd⟩ := load_cases h
  · exact List.nodup_nil
  · obtain ⟨hwell, rfl⟩ := Draft.link_eq_ok_iff.mp hd
    have hnames : (d.linked id).categories.map (·.name) = d.categoryNames := List.map_map
    rw [hnames]
    exact hwell.categoryNames_nodup

/-- Where no two categories share their name, each is found under its own. -/
theorem RuleSet.categoryNamed?_of_mem {r : RuleSet} (h : (r.categories.map (·.name)).Nodup)
    {c : Category} (hc : c ∈ r.categories) : r.categoryNamed? c.name = some c := by
  obtain ⟨i, hi⟩ := List.mem_iff_getElem?.mp hc
  have hname : (r.categories.map (·.name))[i]? = some c.name := by
    rw [List.getElem?_map, hi]
    rfl
  have hid : r.categoryId? c.name = some ⟨i⟩ :=
    congrArg (Option.map CategoryId.mk) ((findIdx?_eq_some_iff_of_nodup h).mpr hname)
  rw [categoryNamed?, hid]
  exact hi

namespace Registry

/-! ### Identities taken -/

/-- How many identities a run takes. -/
def taken (steps : List Step) : Nat := steps.countP Step.takesIdentity

theorem taken_append (steps later : List Step) : taken (steps ++ later) = taken steps + taken later :=
  List.countP_append

theorem taken_snoc (steps : List Step) (s : Step) :
    taken (steps ++ [s]) = taken steps + s.takesIdentity.toNat := by
  rw [taken_append]
  cases hs : s.takesIdentity <;> simp [taken, hs]

/-- More identities have been taken after a step that takes one than before it. -/
theorem taken_take_lt {steps : List Step} {s : Step} {i j : Nat} (hi : steps[i]? = some s)
    (hs : s.takesIdentity = true) (hij : i < j) : taken (steps.take i) < taken (steps.take j) := by
  have hsucc : taken (steps.take (i + 1)) = taken (steps.take i) + 1 := by
    rw [List.take_add_one, hi, taken_append]
    simp [taken, hs]
  have hle : taken (steps.take (i + 1)) ≤ taken (steps.take j) :=
    (List.take_prefix_take_left hij).sublist.countP_le
  omega

end Registry

open Registry

/-! ### What a run keeps -/

/-- The rule set is what a step of the run has constructed, under the identity whose number is one
    more than those taken before that step. -/
structure Held.MadeIn (h : Held) (steps : List Step) : Prop where
  constructed : ∃ source, steps[h.origin]? = some (.construct source) ∧
    source.load h.rules.id = .ok h.rules
  serial_eq : h.rules.id.serial = taken (steps.take h.origin) + 1

theorem Held.MadeIn.append {h : Held} {steps : List Step} (hmade : h.MadeIn steps)
    (later : List Step) : h.MadeIn (steps ++ later) := by
  obtain ⟨⟨source, horigin, hload⟩, hserial⟩ := hmade
  have hlt : h.origin < steps.length := (List.getElem?_eq_some_iff.mp horigin).1
  refine ⟨⟨source, ?_, hload⟩, ?_⟩
  · rw [List.getElem?_append_left hlt]
    exact horigin
  · rw [List.take_append_of_le_length (Nat.le_of_lt hlt)]
    exact hserial

/-- The registry is where the run has led. -/
structure Registry.Follows (g : Registry) (steps : List Step) : Prop where
  steps_eq : g.steps = steps.length
  next_eq : g.counter.next.toNat = (taken steps + 1) % 2 ^ 64
  madeIn : ∀ h ∈ g.held, h.MadeIn steps

namespace Registry

theorem initial_follows : initial.Follows [] where
  steps_eq := rfl
  next_eq := rfl
  madeIn := fun _ hh => absurd hh List.not_mem_nil

variable {g : Registry} {steps : List Step}

/-- What is in use after a step was in use before it, or is new and has the next identity. -/
theorem mem_held_step {s : Step} {h : Held} (hh : h ∈ (g.step s).held) :
    h ∈ g.held ∨ ∃ source, s = .construct source ∧ source.load g.counter.identity = .ok h.rules ∧
      h.origin = g.steps := by
  cases s with
  | construct source =>
    unfold step at hh
    dsimp only at hh
    split at hh
    · rename_i r hr
      rcases List.mem_append.mp hh with hh | hh
      · exact .inl hh
      · cases List.mem_singleton.mp hh
        exact .inr ⟨source, rfl, hr, rfl⟩
    · exact .inl hh
  | copy place =>
    rcases List.mem_append.mp hh with hh | hh
    · exact .inl hh
    · exact .inl (List.mem_of_getElem? (Option.mem_toList.mp hh))
  | drop place => exact .inl (List.mem_of_mem_eraseIdx hh)
  | emptyMap => exact .inl hh

theorem next_step (g : Registry) (s : Step) :
    (g.step s).counter.next.toNat =
      (g.counter.next.toNat + s.takesIdentity.toNat) % 2 ^ 64 := by
  show (if s.takesIdentity then g.counter.advance else g.counter).next.toNat = _
  cases s.takesIdentity with
  | false => exact (Nat.mod_eq_of_lt g.counter.next.toNat_lt).symm
  | true => exact UInt64.toNat_add _ _

/-- The next identity tells how many were taken, as long as the counter has not started again. -/
theorem Follows.identity_eq (hg : g.Follows steps) (hlt : taken steps + 1 < 2 ^ 64) :
    g.counter.identity = ⟨taken steps + 1⟩ :=
  congrArg RuleSetId.mk (hg.next_eq.trans (Nat.mod_eq_of_lt hlt))

theorem Follows.step (hg : g.Follows steps) (s : Step) (hlt : taken (steps ++ [s]) < 2 ^ 64) :
    (g.step s).Follows (steps ++ [s]) where
  steps_eq := by
    rw [List.length_append, ← hg.steps_eq]
    rfl
  next_eq := by
    rw [next_step, hg.next_eq, taken_snoc]
    omega
  madeIn := by
    intro h hh
    rcases mem_held_step hh with hh | ⟨source, rfl, hload, horigin⟩
    · exact (hg.madeIn h hh).append [s]
    · have hid : h.rules.id = g.counter.identity := RuleSource.load_id hload
      have htakes : Step.takesIdentity (.construct source) = true :=
        RuleSource.takesIdentity_of_load hload
      rw [taken_snoc, htakes] at hlt
      rw [hg.steps_eq] at horigin
      refine ⟨⟨source, ?_, hid ▸ hload⟩, ?_⟩
      · rw [horigin]
        exact List.getElem?_concat_length
      · rw [hid, hg.identity_eq hlt, horigin, List.take_left]

theorem Follows.run (hg : g.Follows steps) (later : List Step)
    (hlt : taken (steps ++ later) < 2 ^ 64) : (g.run later).Follows (steps ++ later) := by
  induction later generalizing g steps with
  | nil =>
    rw [List.append_nil]
    exact hg
  | cons s later ih =>
    have happend : steps ++ s :: later = (steps ++ [s]) ++ later := by simp
    rw [happend] at hlt ⊢
    have hbefore : taken (steps ++ [s]) < 2 ^ 64 := by
      rw [taken_append] at hlt
      omega
    exact ih (hg.step s hbefore) hlt

end Registry

/-! ### What an identity tells -/

namespace Held

/-- The first rule set and the categories of the second one know from identities whether they belong
    together: exactly if the two rule sets come from one construction. A category of another
    construction finds nothing, and one of the same construction finds what the category of its
    name finds. -/
structure Identifies (a b : Held) : Prop where
  id_eq_iff : a.rules.id = b.rules.id ↔ a.origin = b.origin
  rules_eq : ∀ c ∈ b.rules.categories, c.rules = b.rules.id
  foreign : a.origin ≠ b.origin → ∀ c ∈ b.rules.categories, ∀ lookback old new grid,
    (Resolver.mk a.rules lookback).resolve c old new grid =
      .miss (.vacant ⟨0, 0⟩ grid.tileWidth grid.tileHeight)
  own : a.origin = b.origin → ∀ c ∈ b.rules.categories,
    ∃ d, a.rules.categoryNamed? c.name = some d ∧ ∀ lookback old new grid,
      (Resolver.mk a.rules lookback).resolve c old new grid =
        (Resolver.mk a.rules lookback).resolve d old new grid

variable {a b : Held} {steps : List Registry.Step}

/-- Rule sets of one construction are copies. -/
theorem MadeIn.rules_eq_of_origin_eq (ha : a.MadeIn steps) (hb : b.MadeIn steps)
    (h : a.origin = b.origin) : a.rules = b.rules := by
  obtain ⟨⟨source, hsource, hload⟩, hserial⟩ := ha
  obtain ⟨⟨source', hsource', hload'⟩, hserial'⟩ := hb
  rw [h] at hsource hserial
  cases hsource.symm.trans hsource'
  have hid : a.rules.id = b.rules.id := congrArg RuleSetId.mk (hserial.trans hserial'.symm)
  rw [hid] at hload
  exact Except.ok.inj (hload.symm.trans hload')

theorem MadeIn.serial_lt (ha : a.MadeIn steps) (hb : b.MadeIn steps) (h : a.origin < b.origin) :
    a.rules.id.serial < b.rules.id.serial := by
  obtain ⟨source, hsource, hload⟩ := ha.constructed
  rw [ha.serial_eq, hb.serial_eq]
  exact Nat.succ_lt_succ (taken_take_lt hsource (RuleSource.takesIdentity_of_load hload) h)

theorem MadeIn.id_eq_iff (ha : a.MadeIn steps) (hb : b.MadeIn steps) :
    a.rules.id = b.rules.id ↔ a.origin = b.origin := by
  constructor
  · intro hid
    have hserial := congrArg RuleSetId.serial hid
    rcases Nat.lt_trichotomy a.origin b.origin with hlt | heq | hgt
    · exact absurd hserial (Nat.ne_of_lt (ha.serial_lt hb hlt))
    · exact heq
    · exact absurd hserial.symm (Nat.ne_of_lt (hb.serial_lt ha hgt))
  · intro horigin
    rw [ha.rules_eq_of_origin_eq hb horigin]

theorem MadeIn.identifies (ha : a.MadeIn steps) (hb : b.MadeIn steps) : a.Identifies b := by
  obtain ⟨source, _, hload⟩ := hb.constructed
  have hstamp := (RuleSource.load_closed hload).rules_eq
  refine ⟨ha.id_eq_iff hb, hstamp, ?_, ?_⟩
  · intro horigin c hc lookback old new grid
    have hforeign : c.rules ≠ a.rules.id := fun heq =>
      horigin ((ha.id_eq_iff hb).mp (heq.symm.trans (hstamp c hc)))
    exact if_pos (.inr (.inr hforeign))
  · intro horigin c hc
    -- The two are copies, so the category is the one that the first rule set has under its name.
    rw [ha.rules_eq_of_origin_eq hb horigin]
    have hnodup := RuleSource.load_categories_nodup hload
    exact ⟨c, RuleSet.categoryNamed?_of_mem hnodup hc, fun _ _ _ _ => rfl⟩

end Held

namespace Registry

/-- After any run that takes fewer identities than there are, each rule set in use is what a step of
    the run has constructed, and identities tell which of them belong together. -/
theorem identifies_of_mem_held (steps : List Step) (h : taken steps < 2 ^ 64) {a b : Held}
    (ha : a ∈ (initial.run steps).held) (hb : b ∈ (initial.run steps).held) :
    a.MadeIn steps ∧ a.Identifies b := by
  have hfollows := initial_follows.run steps h
  have hmade := hfollows.madeIn a ha
  exact ⟨hmade, hmade.identifies (hfollows.madeIn b hb)⟩

/-- The ledge is constructed twice, with a failure and an empty map between. The first ledge is
    copied, and the original is dropped. -/
theorem identifies_of_mem_held_ledge :
    let broken : Draft := { Draft.ledge with categories := [⟨"feet", .y, 0, 0, ["moss"]⟩] }
    let steps : List Step := [.construct (.draft Draft.ledge), .construct (.draft broken),
      .emptyMap, .construct (.draft Draft.ledge), .construct .nothing, .copy 0, .drop 0]
    let copy : Held := ⟨Draft.ledge.linked ⟨1⟩, 0⟩
    let second : Held := ⟨Draft.ledge.linked ⟨4⟩, 3⟩
    taken steps < 2 ^ 64 ∧
      (initial.run steps).held = [second, ⟨.empty ⟨5⟩, 4⟩, copy] ∧
      (copy.MadeIn steps ∧ copy.Identifies second) ∧ copy.Identifies copy := by
  intro broken steps copy second
  have htaken : taken steps < 2 ^ 64 := by decide +kernel
  have hheld : (initial.run steps).held = [second, ⟨.empty ⟨5⟩, 4⟩, copy] := by decide +kernel
  have hcopy : copy ∈ (initial.run steps).held := by simp [hheld]
  have hsecond : second ∈ (initial.run steps).held := by simp [hheld]
  exact ⟨htaken, hheld, identifies_of_mem_held steps htaken hcopy hsecond,
    (identifies_of_mem_held steps htaken hcopy hcopy).2⟩

end Registry
end Terrain
