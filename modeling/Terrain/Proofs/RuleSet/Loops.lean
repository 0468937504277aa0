import Terrain.Proofs.GroupSet
import Terrain.RuleSet.Link

/-! ## The loops of linking

Linking goes through its lists once: it enters names into maps, follows references one after the
other, and gathers what a category needs. Here every loop gets a meaning that has no state: a map
answers as a search in the list of the names entered, references are followed before anything is
made of them, and a category gathers the first mentions. -/

namespace Terrain

/-! ### Maps of names -/

/-- The place of the first entry of a name. -/
def placeOf? (names : List String) (name : String) : Option Nat := names.findIdx? (· == name)

theorem placeOf?_of_mem {names : List String} {name : String} (h : name ∈ names) :
    placeOf? names name = some (names.idxOf name) :=
  List.findIdx?_eq_some_iff_findIdx_eq.mpr ⟨List.idxOf_lt_length_of_mem h, rfl⟩

theorem placeOf?_of_not_mem {names : List String} {name : String} (h : name ∉ names) :
    placeOf? names name = none := by
  refine List.findIdx?_eq_none_iff.mpr fun other hother => ?_
  exact beq_false_of_ne fun heq => h (heq ▸ hother)

theorem placeOf?_map {α : Type} (key : α → String) (l : List α) (name : String) :
    placeOf? (l.map key) name = l.findIdx? (key · == name) :=
  List.findIdx?_map

/-- A name that was not there gets the place behind the others. -/
theorem placeOf?_concat {names : List String} {name : String} (h : name ∉ names) (other : String) :
    placeOf? (names ++ [name]) other =
      if other = name then some names.length else placeOf? names other := by
  rw [placeOf?, List.findIdx?_append, ← placeOf?]
  by_cases hother : other = name
  · subst hother
    rw [placeOf?_of_not_mem h, if_pos rfl]
    simp
  · have hne : (name == other) = false := beq_false_of_ne fun heq => hother heq.symm
    rw [if_neg hother]
    simp [hne]

namespace NameMap

/-- The map answers as a search in the names does. -/
def Holds (m : NameMap) (names : List String) : Prop := ∀ name, m.get? name = placeOf? names name

/-- The map with further names, the first of them at a given place. -/
def insertAll (m : NameMap) : Nat → List String → NameMap
  | _, [] => m
  | place, name :: names => (m.insert name place).1.insertAll (place + 1) names

theorem holds_empty : (∅ : NameMap).Holds [] := get?_empty

namespace Holds

variable {m : NameMap} {names : List String} (h : m.Holds names)

include h

theorem insert {name : String} (hname : name ∉ names) :
    (m.insert name names.length).1.Holds (names ++ [name]) := by
  intro other
  rw [get?_insert, placeOf?_concat hname, h other]

theorem insertAll {more : List String} (hmore : more.Nodup) (hnew : ∀ name ∈ more, name ∉ names) :
    (m.insertAll names.length more).Holds (names ++ more) := by
  induction more generalizing m names with
  | nil =>
    rw [List.append_nil]
    exact h
  | cons name more ih =>
    obtain ⟨hname, hmore⟩ := List.nodup_cons.mp hmore
    have hentered := h.insert (hnew name List.mem_cons_self)
    rw [← List.singleton_append, ← List.append_assoc]
    have hall := ih hentered hmore fun other hother hin => by
      rcases List.mem_append.mp hin with hin | hin
      · exact hnew other (List.mem_cons_of_mem name hother) hin
      · exact hname (List.mem_singleton.mp hin ▸ hother)
    rw [List.length_append] at hall
    exact hall

/-- A name is refused exactly when it was entered before. -/
theorem enter (repeated : String → Fault) (name : String) :
    m.enter repeated name names.length =
      if name ∈ names then .error (repeated name)
      else .ok (m.insert name names.length).1 := by
  unfold NameMap.enter
  have hbefore : (m.insert name names.length).2 = placeOf? names name := h name
  by_cases hname : name ∈ names
  · rw [if_pos hname, hbefore, placeOf?_of_mem hname]
    rfl
  · rw [if_neg hname, hbefore, placeOf?_of_not_mem hname]
    rfl

end Holds

theorem holds_insertAll {names : List String} (h : names.Nodup) :
    ((∅ : NameMap).insertAll 0 names).Holds names :=
  holds_empty.insertAll h fun _ _ => List.not_mem_nil

/-- Names of entries that are entered in an empty map, no name twice, are found where a search in
    the entries finds them. -/
theorem get?_insertAll {α : Type} {key : α → String} {l : List α} {names : List String}
    (hkeys : l.map key = names) (hnames : names.Nodup) (name : String) :
    ((∅ : NameMap).insertAll 0 names).get? name = l.findIdx? (key · == name) := by
  rw [holds_insertAll hnames name, ← hkeys, placeOf?_map]

end NameMap

/-! ### References -/

/-- A loop that follows a reference in each round and keeps going with what it stands for may follow
    all of them first. -/
theorem foldlM_eq_mapM {α β σ : Type} (f : α → Except Fault β) (g : σ → β → σ) (l : List α)
    (s : σ) :
    l.foldlM (fun s a => do
        let b ← f a
        return g s b) s =
      (do
        let bs ← l.mapM f
        return bs.foldl g s) := by
  induction l generalizing s with
  | nil => rfl
  | cons a l ih =>
    rw [List.foldlM_cons, List.mapM_cons]
    cases f a with
    | error e => rfl
    | ok b =>
      refine (ih (g s b)).trans ?_
      cases l.mapM f with
      | error e => rfl
      | ok bs => rfl

theorem linkMask_eq (groups : NameMap) (owner : String) (names : List String) :
    linkMask groups owner names = (do
      let ids ← names.mapM (linkGroup groups owner)
      return GroupSet.ofList ids) :=
  foldlM_eq_mapM (linkGroup groups owner) GroupSet.insert names ∅

/-! ### Gathering -/

section

variable {α : Type} [DecidableEq α]

theorem eraseDups_concat (l : List α) (a : α) : (l ++ [a]).eraseDups = addNew l.eraseDups a := by
  rw [List.eraseDups_append, addNew]
  by_cases ha : a ∈ l
  · rw [if_pos (List.mem_eraseDups.mpr ha)]
    simp [List.removeAll, ha]
  · rw [if_neg fun h => ha (List.mem_eraseDups.mp h)]
    simp [List.removeAll, List.eraseDups_cons, ha]

/-- Entries that are added when they are new are the first mentions. -/
theorem foldl_addNew (l more : List α) :
    more.foldl addNew l.eraseDups = (l ++ more).eraseDups := by
  induction more generalizing l with
  | nil => rw [List.append_nil, List.foldl_nil]
  | cons a more ih => rw [List.foldl_cons, ← eraseDups_concat, ih, List.append_assoc]; rfl

end

namespace Gathered

/-- What a category gathers from the groups that it mentions. -/
def ofMentions (groups : List Group) (mentioned : List GroupId) : Gathered where
  mask := .ofList mentioned.eraseDups
  groups := mentioned.eraseDups
  formulas := (mentioned.eraseDups.flatMap (formulaIdsAt groups)).eraseDups

/-- One more mention. The set tells whether the group was mentioned before, as the groups that it is
    asked for have a bit in it. -/
theorem add_ofMentions (groups : List Group) (mentioned : List GroupId) {g : GroupId}
    (hg : g.index < GroupSet.capacity) :
    (ofMentions groups mentioned).add groups g = ofMentions groups (mentioned ++ [g]) := by
  have hcontains : (ofMentions groups mentioned).mask.contains g = true ↔
      g ∈ mentioned.eraseDups := GroupSet.contains_ofList.trans (and_iff_left hg)
  unfold add
  by_cases hmem : g ∈ mentioned.eraseDups
  · have hsame : (mentioned ++ [g]).eraseDups = mentioned.eraseDups := by
      rw [eraseDups_concat, addNew, if_pos hmem]
    rw [if_pos (hcontains.mpr hmem), ofMentions, ofMentions, hsame]
  · have hmore : (mentioned ++ [g]).eraseDups = mentioned.eraseDups ++ [g] := by
      rw [eraseDups_concat, addNew, if_neg hmem]
    rw [if_neg (mt hcontains.mp hmem), ofMentions, ofMentions, hmore, Gathered.mk.injEq]
    refine ⟨?_, rfl, ?_⟩
    · rw [GroupSet.ofList, GroupSet.ofList, List.foldl_append]
      rfl
    · rw [List.flatMap_append, List.flatMap_singleton]
      exact foldl_addNew _ _

theorem foldl_add (groups : List Group) (mentioned more : List GroupId)
    (hmore : ∀ g ∈ more, g.index < GroupSet.capacity) :
    more.foldl (add groups) (ofMentions groups mentioned) =
      ofMentions groups (mentioned ++ more) := by
  induction more generalizing mentioned with
  | nil => rw [List.append_nil, List.foldl_nil]
  | cons g more ih =>
    rw [List.foldl_cons, add_ofMentions groups mentioned (hmore g List.mem_cons_self),
      ih _ fun g hg => hmore g (List.mem_cons_of_mem _ hg), List.append_assoc]
    rfl

end Gathered

/-- A category links its groups, and then gathers from them. -/
theorem CategoryDraft.link_eq (names : NameMap) (groups : List Group) (id : RuleSetId)
    (c : CategoryDraft) :
    c.link names groups id = (do
      let mentioned ← c.groups.mapM (linkGroup names c.name)
      return c.complete id (mentioned.foldl (Gathered.add groups) Gathered.none)) := by
  unfold link
  rw [foldlM_eq_mapM (linkGroup names c.name) (Gathered.add groups)]
  cases c.groups.mapM (linkGroup names c.name) with
  | error e => rfl
  | ok mentioned => rfl

end Terrain
