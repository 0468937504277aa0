import Mathlib.Data.List.Basic

/-! ## First mentions

A list that may repeat its entries, cut down to the first mention of each. The entries that are left
stand in the order in which they are first mentioned, and a search finds among them what it finds in
the whole list. -/

namespace Terrain

section

variable {α : Type} [BEq α]

/-- Induction along the first mentions: an entry is followed by those of the rest that are not
    mentions of it. -/
theorem eraseDups_induction {motive : List α → Prop} (nil : motive [])
    (cons : ∀ a l, motive (l.filter fun b => !b == a) → motive (a :: l)) : ∀ l, motive l
  | [] => nil
  | a :: l => cons a l (eraseDups_induction nil cons _)
termination_by l => l.length
decreasing_by exact Nat.lt_succ_of_le (List.length_filter_le _ l)

end

variable {α β : Type} [BEq α] [LawfulBEq α]

theorem eraseDups_map [BEq β] [LawfulBEq β] {f : α → β} (l : List α)
    (h : ∀ a ∈ l, ∀ b ∈ l, f a = f b → a = b) : (l.map f).eraseDups = l.eraseDups.map f := by
  induction l using eraseDups_induction with
  | nil => rfl
  | cons a l ih =>
    -- The later mentions of an entry are those of its image.
    have hsame : l.filter ((fun b => !b == f a) ∘ f) = l.filter fun b => !b == a := by
      refine List.filter_congr fun b hb => congrArg Bool.not ?_
      refine Bool.eq_iff_iff.mpr ?_
      simp only [beq_iff_eq]
      constructor
      · exact h b (List.mem_cons_of_mem a hb) a List.mem_cons_self
      · exact congrArg f
    simp only [List.map_cons, List.eraseDups_cons, List.filter_map, hsame]
    refine congrArg (f a :: ·) (ih fun b hb c hc => ?_)
    exact h b (List.mem_cons_of_mem a (List.mem_filter.mp hb).1) c
      (List.mem_cons_of_mem a (List.mem_filter.mp hc).1)

theorem ne_of_mem_later {a b : α} {l : List α} (h : b ∈ (l.filter fun b => !b == a).eraseDups) :
    b ≠ a :=
  bne_iff_ne.mp (List.mem_filter.mp (List.mem_eraseDups.mp h)).2

theorem nodup_eraseDups (l : List α) : l.eraseDups.Nodup := by
  induction l using eraseDups_induction with
  | nil => exact List.nodup_nil
  | cons a l ih =>
    rw [List.eraseDups_cons]
    exact List.nodup_cons.mpr ⟨fun ha => ne_of_mem_later ha rfl, ih⟩

theorem eraseDups_of_nodup {l : List α} (h : l.Nodup) : l.eraseDups = l := by
  induction l with
  | nil => rfl
  | cons a l ih =>
    obtain ⟨ha, hl⟩ := List.nodup_cons.mp h
    have hfilter : l.filter (fun b => !b == a) = l := by
      refine List.filter_eq_self.mpr fun b hb => ?_
      exact bne_iff_ne.mpr fun heq : b = a => ha (heq ▸ hb)
    rw [List.eraseDups_cons, hfilter, ih hl]

/-- A search may leave out later mentions: what does not pass at first does not pass then. -/
theorem find?_eraseDups (q : α → Bool) (l : List α) : l.eraseDups.find? q = l.find? q := by
  induction l using eraseDups_induction with
  | nil => rfl
  | cons a l ih =>
    rw [List.eraseDups_cons, List.find?_cons, List.find?_cons, ih]
    cases ha : q a with
    | true => rfl
    | false =>
      have hother : (fun b => decide ((!b == a) = true ∧ q b = true)) = q := by
        funext b
        by_cases hb : b = a
        · simp [hb, ha]
        · simp [hb]
      dsimp only
      rw [List.find?_filter, hother]

/-! ### Order -/

/-- Entries that are kept stand in the order in which they stood. -/
theorem idxOf_lt_of_filter (p : α → Bool) {a b : α} (ha : p a = true) (hb : p b = true)
    {l : List α} (h : (l.filter p).idxOf a < (l.filter p).idxOf b) : l.idxOf a < l.idxOf b := by
  induction l with
  | nil => exact h
  | cons c l ih =>
    by_cases hc : p c = true
    · rw [List.filter_cons_of_pos hc] at h
      by_cases hcb : c = b
      · rw [hcb, List.idxOf_cons_self] at h
        exact absurd h (Nat.not_lt_zero _)
      · rw [List.idxOf_cons_ne _ hcb] at h ⊢
        by_cases hca : c = a
        · rw [hca, List.idxOf_cons_self]
          exact Nat.succ_pos _
        · rw [List.idxOf_cons_ne _ hca] at h ⊢
          exact Nat.succ_lt_succ (ih (Nat.lt_of_succ_lt_succ h))
    · -- What is left out is neither of the two.
      rw [List.filter_cons_of_neg hc] at h
      have hne : ∀ {x}, p x = true → c ≠ x := fun hx heq => hc (heq ▸ hx)
      rw [List.idxOf_cons_ne _ (hne ha), List.idxOf_cons_ne _ (hne hb)]
      exact Nat.succ_lt_succ (ih h)

theorem pairwise_eraseDups (l : List α) :
    l.eraseDups.Pairwise fun a b => l.idxOf a < l.idxOf b := by
  induction l using eraseDups_induction with
  | nil => exact .nil
  | cons a l ih =>
    rw [List.eraseDups_cons, List.pairwise_cons]
    constructor
    · intro b hb
      rw [List.idxOf_cons_self, List.idxOf_cons_ne _ (ne_of_mem_later hb).symm]
      exact Nat.succ_pos _
    · refine ih.imp_of_mem fun {b c} hb hc hlt => ?_
      have hba := ne_of_mem_later hb
      have hca := ne_of_mem_later hc
      rw [List.idxOf_cons_ne _ hba.symm, List.idxOf_cons_ne _ hca.symm]
      refine Nat.succ_lt_succ (idxOf_lt_of_filter (fun b => !b == a) ?_ ?_ hlt)
      · exact bne_iff_ne.mpr hba
      · exact bne_iff_ne.mpr hca

/-- What a sorted list is sorted by is the order of the places in it. -/
theorem idxOf_lt_iff_of_pairwise {l : List α} {r : α → Nat} (h : l.Pairwise fun a b => r a < r b)
    {a b : α} (ha : a ∈ l) (hb : b ∈ l) : l.idxOf a < l.idxOf b ↔ r a < r b := by
  have hlt : ∀ {a b : α}, a ∈ l → b ∈ l → l.idxOf a < l.idxOf b → r a < r b := by
    intro a b ha hb hab
    have hpair := List.pairwise_iff_getElem.mp h _ _ (List.idxOf_lt_length_of_mem ha)
      (List.idxOf_lt_length_of_mem hb) hab
    rw [List.getElem_idxOf, List.getElem_idxOf] at hpair
    exact hpair
  refine ⟨hlt ha hb, fun hab => ?_⟩
  rcases Nat.lt_trichotomy (l.idxOf a) (l.idxOf b) with h | h | h
  · exact h
  · obtain rfl := (List.idxOf_inj ha).mp h
    exact absurd hab (Nat.lt_irrefl _)
  · exact absurd hab (Nat.lt_asymm (hlt hb ha h))

/-- The entries of another list, each once, in the order in which they are first mentioned there. -/
structure FirstMentions (l mentions : List α) : Prop where
  nodup : l.Nodup
  mem_iff : ∀ {a}, a ∈ l ↔ a ∈ mentions
  precedes_iff : ∀ {a b}, a ∈ l → b ∈ l →
    (l.idxOf a < l.idxOf b ↔ mentions.idxOf a < mentions.idxOf b)

theorem firstMentions_eraseDups (l : List α) : FirstMentions l.eraseDups l where
  nodup := nodup_eraseDups l
  mem_iff := List.mem_eraseDups
  precedes_iff := idxOf_lt_iff_of_pairwise (pairwise_eraseDups l)

end Terrain
