import Terrain.Grid.TileMap
import Terrain.Proofs.RuleSet.Linking

/-! ## Maps under edits

To those who read it, a map is a partial function from addresses to pictures, each with the rules
that its groups were looked up in. Here this function is followed through a run of edits: a cell
shows what was last placed in it, whatever was done elsewhere, and no place outside is touched. -/

namespace Terrain

/-! ### Addresses on a map -/

/-- The address lies in the rectangle of columns and rows that starts at the origin. -/
structure Cell.Within (c : Cell) (columns rows : UInt32) : Prop where
  x_nonneg : 0 ≤ c.x.toInt
  x_lt : c.x.toInt < columns.toNat
  y_nonneg : 0 ≤ c.y.toInt
  y_lt : c.y.toInt < rows.toNat

/-- The place of an address when cells are counted row by row. -/
def Cell.rowMajor (c : Cell) (columns : UInt32) : Nat :=
  c.y.toInt.toNat * columns.toNat + c.x.toInt.toNat

namespace Cell.Within

variable {c d : Cell} {columns rows : UInt32}

theorem rowMajor_lt (h : c.Within columns rows) :
    c.rowMajor columns < columns.toNat * rows.toNat := by
  obtain ⟨hx, hx', hy, hy'⟩ := h
  have hcolumn : c.x.toInt.toNat < columns.toNat := by omega
  have hrow : c.y.toInt.toNat + 1 ≤ rows.toNat := by omega
  calc c.rowMajor columns
      < c.y.toInt.toNat * columns.toNat + columns.toNat := Nat.add_lt_add_left hcolumn _
    _ = (c.y.toInt.toNat + 1) * columns.toNat := (Nat.succ_mul _ _).symm
    _ ≤ rows.toNat * columns.toNat := Nat.mul_le_mul_right _ hrow
    _ = columns.toNat * rows.toNat := Nat.mul_comm _ _

/-- Two addresses of a map are never kept in one place. -/
theorem rowMajor_inj (h : c.Within columns rows) (h' : d.Within columns rows)
    (heq : c.rowMajor columns = d.rowMajor columns) : c = d := by
  obtain ⟨hx, hx', hy, _⟩ := h
  obtain ⟨hdx, hdx', hdy, _⟩ := h'
  have hcolumn : c.x.toInt.toNat < columns.toNat := by omega
  have hcolumn' : d.x.toInt.toNat < columns.toNat := by omega
  unfold rowMajor at heq
  -- The row is the quotient by the number of columns and the column is the remainder.
  have hrows : c.y.toInt.toNat = d.y.toInt.toNat := by
    have hdiv := congrArg (· / columns.toNat) heq
    simpa only [Nat.mul_comm _ columns.toNat, Nat.mul_add_div (Nat.zero_lt_of_lt hcolumn),
      Nat.div_eq_of_lt hcolumn, Nat.div_eq_of_lt hcolumn', Nat.add_zero] using hdiv
  have hcolumns : c.x.toInt.toNat = d.x.toInt.toNat := by
    rw [hrows] at heq
    exact Nat.add_left_cancel heq
  ext
  · exact Int32.toInt_inj.mp (by omega)
  · exact Int32.toInt_inj.mp (by omega)

end Cell.Within

namespace TileMap

variable {m m' : TileMap} {c : Cell} {i : Nat}

theorem index?_eq_some_iff :
    m.index? c = some i ↔ c.Within m.columns m.rows ∧ c.rowMajor m.columns = i := by
  unfold index?
  dsimp only
  constructor
  · intro h
    split at h
    · rename_i hc
      exact ⟨⟨hc.1, hc.2.1, hc.2.2.1, hc.2.2.2⟩, Option.some.inj h⟩
    · cases h
  · intro ⟨hc, hi⟩
    rw [if_pos ⟨hc.x_nonneg, hc.x_lt, hc.y_nonneg, hc.y_lt⟩]
    exact congrArg some hi

theorem index?_eq_none_iff : m.index? c = none ↔ ¬c.Within m.columns m.rows := by
  simp only [Option.eq_none_iff_forall_ne_some, ne_eq, index?_eq_some_iff, not_and]
  constructor
  · intro h hc
    exact h _ hc rfl
  · intro h i hc
    exact absurd hc h

/-! ### Edits -/

/-- A picture to be placed in a cell, or a cell to be cleared, under some rules. -/
structure Edit where
  cell : Cell
  tile : Option TileId
  rules : RuleSet

/-- The map with an edit carried out, or as it was if the edit is refused. -/
def edit (m : TileMap) (e : Edit) : TileMap := (m.setTile? e.cell e.tile e.rules).getD m

/-- The map after a run of edits, of which some may be refused. -/
def after (m : TileMap) (edits : List Edit) : TileMap := edits.foldl edit m

/-- The edits of a run that are carried out. -/
def carriedOut (m : TileMap) : List Edit → List Edit
  | [] => []
  | e :: rest =>
    match m.setTile? e.cell e.tile e.rules with
    | some m' => e :: m'.carriedOut rest
    | none => m.carriedOut rest

/-- What a map shows in its cells: a picture, and the rules that its groups come from. -/
abbrev Content := Cell → Option (TileId × RuleSet)

/-- What an edit leaves in its cell. -/
def Edit.content (e : Edit) : Option (TileId × RuleSet) := e.tile.map (·, e.rules)

/-- What a run leaves in a cell: what the last edit of the cell that is carried out puts there, and
    what was there at first if there is none. -/
def contentAfter (m : TileMap) (start : Content) (edits : List Edit) : Content := fun c =>
  match (m.carriedOut edits).findRev? (·.cell = c) with
  | some e => e.content
  | none => start c

/-- The content with one cell changed. -/
def Content.write (content : Content) (e : Edit) : Content := fun c =>
  if e.cell = c then e.content else content c

theorem contentAfter_cons_some {e : Edit} (h : m.setTile? e.cell e.tile e.rules = some m')
    (start : Content) (edits : List Edit) :
    m.contentAfter start (e :: edits) = m'.contentAfter (start.write e) edits := by
  funext c
  simp only [contentAfter, carriedOut, h, List.findRev?, Content.write]
  cases (m'.carriedOut edits).findRev? (·.cell = c) with
  | some later => rfl
  | none => by_cases hc : e.cell = c <;> simp [hc]

theorem contentAfter_cons_none {e : Edit} (h : m.setTile? e.cell e.tile e.rules = none)
    (start : Content) (edits : List Edit) :
    m.contentAfter start (e :: edits) = m.contentAfter start edits := by
  unfold contentAfter
  rw [carriedOut, h]

/-! ### What a map shows -/

section

variable {columns rows tileWidth tileHeight : UInt32} {content : Content}

/-- The map has as many cells as its size says, and keeps for each picture the groups that its
    rules have for it. -/
structure Shows (m : TileMap) (columns rows tileWidth tileHeight : UInt32) (content : Content) :
    Prop where
  columns_eq : m.columns = columns
  rows_eq : m.rows = rows
  tileWidth_eq : m.tileWidth = tileWidth
  tileHeight_eq : m.tileHeight = tileHeight
  size_eq : m.cells.size = columns.toNat * rows.toNat
  placement?_eq : ∀ c, c.Within columns rows →
    m.placement? c = (content c).map fun (id, rules) => ⟨id, rules.groupsForTile id⟩

/-- The ways to start: a map made of pictures, which are listed row by row, and one without
    pictures. -/
inductive Starts (columns rows tileWidth tileHeight : UInt32) : TileMap → Content → Prop
  | make {tiles : Array (Option TileId)} {rules : RuleSet} {m : TileMap}
      (h : make columns rows tileWidth tileHeight tiles rules = .ok m) :
      Starts columns rows tileWidth tileHeight m fun c =>
        (tiles[c.rowMajor columns]?).join.map (·, rules)
  | empty {m : TileMap} (h : empty columns rows tileWidth tileHeight = .ok m) :
      Starts columns rows tileWidth tileHeight m fun _ => none

theorem placement?_eq (m : TileMap) (hc : c.Within m.columns m.rows) :
    m.placement? c = (m.cells[c.rowMajor m.columns]?).join := by
  unfold placement?
  rw [index?_eq_some_iff.mpr ⟨hc, rfl⟩]
  rfl

theorem Starts.shows (h : Starts columns rows tileWidth tileHeight m content) :
    m.Shows columns rows tileWidth tileHeight content := by
  cases h with
  | @make tiles rules m h =>
    unfold TileMap.make at h
    dsimp only at h
    split at h
    · cases h
    · split at h
      · cases h
      · rename_i hsize
        cases h
        refine ⟨rfl, rfl, rfl, rfl, ?_, fun c hc => ?_⟩
        · rw [Array.size_map]
          exact Classical.not_not.mp hsize
        · rw [placement?_eq _ hc]
          simp only [Array.getElem?_map]
          cases tiles[c.rowMajor columns]? with
          | none => rfl
          | some tile => cases tile <;> rfl
  | empty h =>
    unfold TileMap.empty at h
    split at h
    · cases h
    · cases h
      refine ⟨rfl, rfl, rfl, rfl, Array.size_replicate, fun c hc => ?_⟩
      rw [placement?_eq _ hc]
      simp only [Array.getElem?_replicate]
      split <;> rfl

/-! ### One edit -/

theorem setTile?_eq_none_iff {tile : Option TileId} {rules : RuleSet} :
    m.setTile? c tile rules = none ↔ ¬c.Within m.columns m.rows := by
  rw [setTile?, Option.map_eq_none_iff, index?_eq_none_iff]

/-- What an edit does to the map that it is carried out on. -/
theorem setTile?_eq_some_iff {tile : Option TileId} {rules : RuleSet} :
    m.setTile? c tile rules = some m' ↔ c.Within m.columns m.rows ∧
      m' = { m with cells := m.cells.setIfInBounds (c.rowMajor m.columns) (place rules tile) } := by
  simp only [setTile?, Option.map_eq_some_iff, index?_eq_some_iff]
  constructor
  · intro ⟨i, ⟨hc, hi⟩, hm⟩
    subst hi
    exact ⟨hc, hm.symm⟩
  · intro ⟨hc, hm⟩
    exact ⟨_, ⟨hc, rfl⟩, hm.symm⟩

/-- An edit that is carried out leaves every other cell alone. -/
theorem placement?_setTile?_of_ne {d : Cell} {tile : Option TileId} {rules : RuleSet}
    (h : m.setTile? d tile rules = some m') (hne : c ≠ d) : m'.placement? c = m.placement? c := by
  obtain ⟨hd, rfl⟩ := setTile?_eq_some_iff.mp h
  by_cases hc : c.Within m.columns m.rows
  · have hplace : d.rowMajor m.columns ≠ c.rowMajor m.columns := fun heq =>
      hne (hc.rowMajor_inj hd heq.symm)
    rw [placement?_eq m hc, placement?_eq _ (by exact hc), Array.getElem?_setIfInBounds_ne hplace]
  · -- Outside there is nothing before and nothing after.
    have hnone : m.index? c = none := index?_eq_none_iff.mpr hc
    show (m.index? c).bind _ = (m.index? c).bind _
    rw [hnone]
    rfl

/-- An edit that is carried out puts its picture into its cell, with the groups that its rules have
    for it. -/
theorem placement?_setTile?_self {tile : Option TileId} {rules : RuleSet}
    (h : m.setTile? c tile rules = some m')
    (hsize : m.cells.size = m.columns.toNat * m.rows.toNat) :
    m'.placement? c = place rules tile := by
  obtain ⟨hc, rfl⟩ := setTile?_eq_some_iff.mp h
  have hlt : c.rowMajor m.columns < m.cells.size := hsize ▸ hc.rowMajor_lt
  rw [placement?_eq _ (by exact hc), Array.getElem?_setIfInBounds_self_of_lt hlt]
  rfl

theorem Shows.setTile? {e : Edit} (h : m.Shows columns rows tileWidth tileHeight content)
    (he : m.setTile? e.cell e.tile e.rules = some m') :
    m'.Shows columns rows tileWidth tileHeight (content.write e) := by
  have hplaced := placement?_setTile?_self he (by rw [h.size_eq, h.columns_eq, h.rows_eq])
  have hothers : ∀ {c}, c ≠ e.cell → m'.placement? c = m.placement? c :=
    placement?_setTile?_of_ne he
  obtain ⟨_, rfl⟩ := setTile?_eq_some_iff.mp he
  refine ⟨h.columns_eq, h.rows_eq, h.tileWidth_eq, h.tileHeight_eq, ?_, fun c hc => ?_⟩
  · exact Array.size_setIfInBounds.trans h.size_eq
  · unfold Content.write
    split
    · rename_i heq
      subst heq
      rw [hplaced, Edit.content, place, Option.map_map]
      rfl
    · rename_i hne
      rw [hothers (Ne.symm hne)]
      exact h.placement?_eq c hc

/-! ### A run of edits -/

theorem Shows.after (h : m.Shows columns rows tileWidth tileHeight content) (edits : List Edit) :
    (m.after edits).Shows columns rows tileWidth tileHeight (m.contentAfter content edits) := by
  induction edits generalizing m content with
  | nil => exact h
  | cons e edits ih =>
    show ((m.edit e).after edits).Shows _ _ _ _ _
    unfold edit
    cases he : m.setTile? e.cell e.tile e.rules with
    | none =>
      rw [contentAfter_cons_none he]
      exact ih h
    | some m' =>
      rw [contentAfter_cons_some he]
      exact ih (h.setTile? he)

/-- A map is read as a partial function: what can be asked of it, and what an edit can do to it,
    in terms of its content. -/
structure Reads (m : TileMap) (columns rows tileWidth tileHeight : UInt32) (content : Content) :
    Prop where
  size_eq : m.cells.size = columns.toNat * rows.toNat
  /-- Every place that is read or written is one of the cells. -/
  index_lt : ∀ {c i}, m.index? c = some i → i < m.cells.size
  tileAt_iff : ∀ {c t}, m.tileAt c = some t ↔ c.Within columns rows ∧
    ∃ id rules, content c = some (id, rules) ∧ t = ⟨some id, c, tileWidth, tileHeight⟩
  membership_eq : ∀ {c t id rules}, m.tileAt c = some t → content c = some (id, rules) →
    m.membership t = rules.groupsForTile id
  /-- A tile that is not what its cell shows now has no groups. -/
  membership_stale : ∀ {t : Tile}, (∀ now, m.tileAt t.cell = some now → now.id ≠ t.id) →
    m.membership t = ∅
  setTile?_none_iff : ∀ {e : Edit},
    m.setTile? e.cell e.tile e.rules = none ↔ ¬e.cell.Within columns rows
  edit_refused : ∀ {e : Edit}, m.setTile? e.cell e.tile e.rules = none → m.edit e = m
  edit_others : ∀ {e : Edit} {c : Cell}, c ≠ e.cell → (m.edit e).tileAt c = m.tileAt c ∧
    ∀ t, t.cell = c → (m.edit e).membership t = m.membership t

theorem Shows.tileAt_iff (h : m.Shows columns rows tileWidth tileHeight content) {t : Tile} :
    m.tileAt c = some t ↔ c.Within columns rows ∧
      ∃ id rules, content c = some (id, rules) ∧ t = ⟨some id, c, tileWidth, tileHeight⟩ := by
  unfold tileAt
  by_cases hc : c.Within columns rows
  · rw [h.placement?_eq c hc, h.tileWidth_eq, h.tileHeight_eq]
    cases content c with
    | none => simp
    | some shown =>
      obtain ⟨id, rules⟩ := shown
      simp [hc, eq_comm]
  · have hnone : m.index? c = none := by
      rw [index?_eq_none_iff, h.columns_eq, h.rows_eq]
      exact hc
    simp [placement?, hnone, hc]

theorem membership_of_placement? {t : Tile} {p : Placement} (h : m.placement? t.cell = some p)
    (hid : t.id = some p.id) : m.membership t = p.groups := by
  unfold membership
  simp only [h, if_pos hid]

theorem membership_eq_empty {t : Tile} (h : ∀ now, m.tileAt t.cell = some now → now.id ≠ t.id) :
    m.membership t = ∅ := by
  unfold membership
  cases hp : m.placement? t.cell with
  | none => rfl
  | some p =>
    dsimp only
    rw [if_neg]
    intro hid
    have hnow : m.tileAt t.cell = some ⟨some p.id, t.cell, m.tileWidth, m.tileHeight⟩ := by
      rw [tileAt, hp]
      rfl
    exact h _ hnow hid.symm

theorem placement?_edit_of_ne {e : Edit} (hne : c ≠ e.cell) :
    (m.edit e).placement? c = m.placement? c := by
  unfold edit
  cases he : m.setTile? e.cell e.tile e.rules with
  | none => rfl
  | some m' => exact placement?_setTile?_of_ne he hne

theorem edit_sizes (m : TileMap) (e : Edit) :
    (m.edit e).tileWidth = m.tileWidth ∧ (m.edit e).tileHeight = m.tileHeight := by
  unfold edit
  cases he : m.setTile? e.cell e.tile e.rules with
  | none => exact ⟨rfl, rfl⟩
  | some m' =>
    obtain ⟨_, rfl⟩ := setTile?_eq_some_iff.mp he
    exact ⟨rfl, rfl⟩

theorem tileAt_edit_of_ne {e : Edit} (hne : c ≠ e.cell) : (m.edit e).tileAt c = m.tileAt c := by
  obtain ⟨hwidth, hheight⟩ := edit_sizes m e
  simp only [tileAt, placement?_edit_of_ne hne, hwidth, hheight]

theorem membership_edit_of_ne {e : Edit} {t : Tile} (hne : t.cell ≠ e.cell) :
    (m.edit e).membership t = m.membership t := by
  simp only [membership, placement?_edit_of_ne hne]

theorem Shows.reads (h : m.Shows columns rows tileWidth tileHeight content) :
    m.Reads columns rows tileWidth tileHeight content where
  size_eq := h.size_eq
  index_lt := by
    intro c i hi
    obtain ⟨hc, rfl⟩ := index?_eq_some_iff.mp hi
    rw [h.size_eq, ← h.columns_eq, ← h.rows_eq]
    exact hc.rowMajor_lt
  tileAt_iff := h.tileAt_iff
  membership_eq := by
    intro c t id rules ht hcontent
    obtain ⟨hc, id', rules', hcontent', rfl⟩ := h.tileAt_iff.mp ht
    cases hcontent.symm.trans hcontent'
    refine membership_of_placement? (p := ⟨id, rules.groupsForTile id⟩) ?_ rfl
    rw [h.placement?_eq c hc, hcontent]
    rfl
  membership_stale := membership_eq_empty
  setTile?_none_iff := by
    intro e
    rw [setTile?_eq_none_iff, h.columns_eq, h.rows_eq]
  edit_refused := by
    intro e he
    rw [edit, he]
    rfl
  edit_others := by
    intro e c hne
    refine ⟨tileAt_edit_of_ne hne, fun t ht => membership_edit_of_ne ?_⟩
    rw [ht]
    exact hne

/-- Whatever has been edited on a map, under whatever rules: it is read as the partial function that
    the run has left. -/
theorem reads_after_edits (h : Starts columns rows tileWidth tileHeight m content)
    (edits : List Edit) :
    (m.after edits).Reads columns rows tileWidth tileHeight (m.contentAfter content edits) :=
  (h.shows.after edits).reads

/-- Two cells of a map are edited, one of them twice and first under other rules, and two cells that
    are not on the map. -/
theorem reads_after_edits_ledge :
    let rules := Draft.ledge.linked ⟨1⟩
    let tiles : Array (Option TileId) := #[some ⟨0, 1⟩, none, none, some ⟨0, 2⟩]
    let m : TileMap := ⟨2, 2, 16, 8, tiles.map (place rules)⟩
    let start : Content := fun c => (tiles[c.rowMajor 2]?).join.map (·, rules)
    let edits : List Edit := [⟨⟨1, 1⟩, some ⟨0, 1⟩, .empty ⟨2⟩⟩, ⟨⟨2, 0⟩, some ⟨0, 1⟩, rules⟩,
      ⟨⟨0, 0⟩, none, rules⟩, ⟨⟨-1, 1⟩, none, rules⟩, ⟨⟨1, 1⟩, some ⟨0, 2⟩, rules⟩]
    Starts 2 2 16 8 m start ∧ (m.after edits).Reads 2 2 16 8 (m.contentAfter start edits) ∧
      m.contentAfter start edits ⟨0, 0⟩ = none ∧
      m.contentAfter start edits ⟨1, 1⟩ = some (⟨0, 2⟩, rules) := by
  intro rules tiles m start edits
  have hstart : Starts 2 2 16 8 m start := .make rfl
  refine ⟨hstart, reads_after_edits hstart edits, ?_, ?_⟩
  · decide +kernel
  · decide +kernel

end

end TileMap
end Terrain
