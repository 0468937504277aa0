import Terrain.Grid.Field
import Terrain.Grid.TileMap
import Terrain.RuleSet.Load
import Terrain.Walk

/-! ## Sessions

A session keeps rule sets under names, one scene and a lookback policy. Commands change it and
queries only ask. A step that cannot be done answers why and changes nothing. -/

namespace Terrain

/-- Where rules come from. -/
inductive RuleSource where
  | nothing
  | text (text : String)
  | draft (draft : Draft)
  deriving DecidableEq, Inhabited

/-- The rule set of a source. No source gives the rule set with no rules. -/
def RuleSource.load (s : RuleSource) (id : RuleSetId) : Except Fault RuleSet :=
  match s with
  | .nothing => .ok (.empty id)
  | .text source => RuleSet.ofText source id
  | .draft d => d.link id

/-- The scene of a session. -/
inductive Scene where
  | map (m : TileMap)
  | field (f : Field)
  deriving DecidableEq, Inhabited

/-- The scene as a grid. -/
def Scene.toGrid : Scene → Grid
  | .map m => m.toGrid
  | .field f => f.toGrid

/-- The state of a session. -/
structure Session where
  /-- Rule sets by name, the latest first. -/
  rules : List (String × RuleSet)
  scene : Option Scene
  lookback : Lookback
  /-- The identity of the next rule set. -/
  nextId : RuleSetId
  deriving Inhabited

namespace Session

/-- A session before its first step. -/
def initial : Session := ⟨[], none, default, ⟨1⟩⟩

/-- What changes a session. Rule sets are named by their slot. -/
inductive Command where
  | load (slot : String) (source : RuleSource)
  | clone (source slot : String)
  | setLookback (lookback : Lookback)
  | makeMap (slot : String) (columns rows tileWidth tileHeight : UInt32)
      (tiles : Array (Option TileId))
  | makeEmptyMap (columns rows tileWidth tileHeight : UInt32)
  /-- The cells are listed in the order in which they are filled. -/
  | makeField (slot : String) (tileWidth tileHeight shownWidth shownHeight : UInt32)
      (fill : Option TileId) (cells : List (Cell × Option TileId))
  | setTile (slot : String) (cell : Cell) (tile : Option TileId)

/-- What only asks. -/
inductive Query where
  | sameId (slot other : String)
  | rules (slot : String)
  | lookup (slot name : String)
  | categoryName (slot : String) (id : CategoryId)
  | groupsForTiles (slot : String) (tiles : List TileId)
  | tileAt (cell : Cell)
  | membership (tile : Tile)
  | map
  | resolve (slot categorySlot category : String) (old new : Point)
  | resolveAll (slot : String) (ids : List CategoryId) (old new : Point)
  | apply (slot category : String) (x y : Option Binary64) (origin : Point)
  | walk (slot : String) (ids : List CategoryId) (position velocity : Point) (ticks : Nat)

/-- One step of a session. -/
inductive Step where
  | command (command : Command)
  | query (query : Query)

/-- Why a step could not be done. -/
inductive Refusal where
  | noSlot
  | noCategory
  | noScene
  | notAMap
  | fault (fault : Fault)
  deriving DecidableEq, Inhabited

/-- What a step answers. -/
inductive Answer where
  | done
  | flag (value : Bool)
  | stats (stats : RuleStats)
  | rules (rules : RuleSet)
  | places (formula : Option FormulaId) (group : Option GroupId) (category : Option CategoryId)
  | name (name : Option String)
  | groups (groups : GroupSet)
  | groupsOfEach (groups : List GroupSet)
  | mapSize (columns rows : UInt32)
  | tile (tile : Option (Tile × GroupSet))
  | map (map : TileMap)
  | contact (contact : Contact)
  | contacts (found : List (CategoryId × Contact)) (applied : Point)
  | moved (sample origin : Point)
  | ticks (ticks : List Tick)

/-! ### State -/

/-- The rule set of a slot. -/
def slot? (s : Session) (slot : String) : Except Refusal RuleSet :=
  match s.rules.lookup slot with
  | some r => .ok r
  | none => .error .noSlot

/-- A category by its name. -/
def category? (r : RuleSet) (name : String) : Except Refusal Category :=
  match r.categoryNamed? name with
  | some c => .ok c
  | none => .error .noCategory

/-- The scene. -/
def scene? (s : Session) : Except Refusal Scene :=
  match s.scene with
  | some scene => .ok scene
  | none => .error .noScene

/-- The scene as a map. -/
def map? (s : Session) : Except Refusal TileMap := do
  match ← s.scene? with
  | .map m => return m
  | .field _ => throw .notAMap

/-- Puts a rule set into a slot. -/
def store (s : Session) (slot : String) (r : RuleSet) : Session :=
  { s with rules := (slot, r) :: s.rules }

/-- The resolver of a slot under the current policy. -/
def resolver (s : Session) (r : RuleSet) : Resolver := ⟨r, s.lookback⟩

/-- A result of a construction, with its fault as a refusal. -/
def orRefuse {α : Type} : Except Fault α → Except Refusal α
  | .ok a => .ok a
  | .error fault => .error (.fault fault)

/-! ### Steps -/

/-- Carries out a command: the answer and the new state. -/
def perform (s : Session) : Command → Except Refusal (Answer × Session)
  | .load slot source => do
    let r ← orRefuse (source.load s.nextId)
    return (.stats r.stats, { s.store slot r with nextId := ⟨s.nextId.serial + 1⟩ })
  | .clone source slot => do
    let r ← s.slot? source
    return (.done, s.store slot r)
  | .setLookback lookback => return (.done, { s with lookback := lookback })
  | .makeMap slot columns rows tileWidth tileHeight tiles => do
    let r ← s.slot? slot
    let m ← orRefuse (TileMap.make columns rows tileWidth tileHeight tiles r)
    return (.mapSize m.columns m.rows, { s with scene := some (.map m) })
  | .makeEmptyMap columns rows tileWidth tileHeight => do
    let m ← orRefuse (TileMap.empty columns rows tileWidth tileHeight)
    return (.mapSize m.columns m.rows, { s with scene := some (.map m) })
  | .makeField slot tileWidth tileHeight shownWidth shownHeight fill cells => do
    let r ← s.slot? slot
    let f : Field := ⟨tileWidth, tileHeight, shownWidth, shownHeight, fill, cells.reverse, r⟩
    return (.done, { s with scene := some (.field f) })
  | .setTile slot cell tile => do
    let r ← s.slot? slot
    let m ← s.map?
    match m.setTile? cell tile r with
    -- Only this placement takes the rules of the slot; the others keep their groups.
    | some m => return (.flag true, { s with scene := some (.map m) })
    | none => return (.flag false, s)

/-- Answers a query. -/
def ask (s : Session) : Query → Except Refusal Answer
  | .sameId slot other => do
    let r ← s.slot? slot
    let q ← s.slot? other
    return .flag (r.id == q.id)
  | .rules slot => return .rules (← s.slot? slot)
  | .lookup slot name => do
    let r ← s.slot? slot
    return .places (r.formulaId? name) (r.groupId? name) (r.categoryId? name)
  | .categoryName slot id => do
    let r ← s.slot? slot
    return .name ((r.category? id).map (·.name))
  | .groupsForTiles slot tiles => do
    let r ← s.slot? slot
    return .groupsOfEach (tiles.map r.groupsForTile)
  | .tileAt cell => do
    let grid := (← s.scene?).toGrid
    return .tile ((grid.tileAt cell).map fun t => (t, grid.membership t))
  | .membership tile => return .groups ((← s.scene?).toGrid.membership tile)
  | .map => return .map (← s.map?)
  | .resolve slot categorySlot category old new => do
    let r ← s.slot? slot
    let c ← category? (← s.slot? categorySlot) category
    return .contact ((s.resolver r).resolve c old new (← s.scene?).toGrid)
  | .resolveAll slot ids old new => do
    let r ← s.slot? slot
    let found := (s.resolver r).resolveAll ids old new (← s.scene?).toGrid
    return .contacts found (found.foldl (fun p (_, contact) => contact.apply p) new)
  | .apply slot category x y origin => do
    let c ← category? (← s.slot? slot) category
    let contact : Contact := ⟨x, y, default⟩
    return .moved (contact.apply origin) (c.apply contact origin)
  | .walk slot ids position velocity ticks => do
    let r ← s.slot? slot
    return .ticks ((s.resolver r).walk ids velocity (← s.scene?).toGrid ticks position)

/-- One step: the answer or the refusal, and the state after it. -/
def step (s : Session) : Step → Except Refusal Answer × Session
  | .command c =>
    match s.perform c with
    | .ok (answer, s) => (.ok answer, s)
    | .error refusal => (.error refusal, s)
  | .query q => (s.ask q, s)

/-- The answers to a list of steps. -/
def run (s : Session) : List Step → List (Except Refusal Answer)
  | [] => []
  | st :: rest =>
    let (answer, s) := s.step st
    answer :: s.run rest

end Session
end Terrain
