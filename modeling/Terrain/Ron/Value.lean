import Terrain.Ron.Numeral
import Terrain.Ron.Token

/-! ## Values

The second stage of reading: tokens are put together into a value, whatever it is for. The same
value is what a skipped field has to be and what a typed reader looks into, so a text is well
formed independently of what is expected from it. -/

namespace Terrain.Ron

/-- A value. Numbers are kept as they are written. -/
inductive Value where
  | text (s : String)
  | character (c : Char)
  | numeral (run : List Char)
  | word (w : Word)
  /-- Round brackets with nothing between them, not even a blank. -/
  | unit
  /-- A value behind the word `Some`. -/
  | wrapped (v : Value)
  | list (items : List Value)
  | map (entries : List (Value × Value))
  /-- Round brackets around items, with a name in front or without. -/
  | tuple (name : Option Word) (items : List Value)
  /-- Round brackets around named fields, with a name in front or without. -/
  | record (name : Option Word) (fields : List (Word × Value))
  deriving Inhabited

/-! ### Reading -/

namespace Value

mutual

/-- The value at the start of the tokens, and what follows it. `bare` allows wrapped values without
    brackets; the number bounds the depth of the recursion. -/
def parse? (bare : Bool) : Nat → List Token → Option (Value × List Token)
  | 0, _ => none
  | n + 1, ts =>
    match ts with
    | .text s :: ts => some (.text s, ts)
    | .character c :: ts => some (.character c, ts)
    | .unit :: ts => some (.unit, ts)
    | .numeral run :: ts => if Numeral.isNumber run then some (.numeral run, ts) else none
    | .word w :: ts =>
      if w.isConstant then some (.word w, ts)
      else if w.isSome then
        match ts with
        | .opening .round :: ts =>
          match parseItems? bare n .round ts with
          | some ([v], ts) => some (.wrapped v, ts)
          | _ => none
        | .unit :: _ => none
        | ts => if bare then (parse? bare n ts).map fun (v, ts) => (.wrapped v, ts) else none
      else
        match ts with
        | .opening .round :: ts => parseBracketed? bare n (some w) ts
        | .unit :: ts => some (.tuple (some w) [], ts)
        | ts => some (.word w, ts)
    | .opening .round :: ts => parseBracketed? bare n none ts
    | .opening .square :: ts => (parseItems? bare n .square ts).map fun (vs, ts) => (.list vs, ts)
    | .opening .curly :: ts => (parseEntries? bare n ts).map fun (es, ts) => (.map es, ts)
    | _ => none

/-- A tuple or a record after its opening bracket. Only a record starts with a word and a
    colon. -/
def parseBracketed? (bare : Bool) : Nat → Option Word → List Token → Option (Value × List Token)
  | 0, _, _ => none
  | n + 1, name, ts =>
    match ts with
    | .word _ :: .colon :: _ => (parseFields? bare n ts).map fun (fs, ts) => (.record name fs, ts)
    | _ => (parseItems? bare n .round ts).map fun (vs, ts) => (.tuple name vs, ts)

/-- Items up to the closing bracket, with commas between them and perhaps one at the end. -/
def parseItems? (bare : Bool) : Nat → Bracket → List Token → Option (List Value × List Token)
  | 0, _, _ => none
  | n + 1, close, ts =>
    if ts.head? = some (.closing close) then some ([], ts.tail)
    else
      match parse? bare n ts with
      | some (v, .comma :: ts) => (parseItems? bare n close ts).map fun (vs, ts) => (v :: vs, ts)
      | some (v, t :: ts) => if t = .closing close then some ([v], ts) else none
      | _ => none

/-- Entries of a map up to the closing bracket. -/
def parseEntries? (bare : Bool) : Nat → List Token → Option (List (Value × Value) × List Token)
  | 0, _ => none
  | n + 1, ts =>
    if ts.head? = some (.closing .curly) then some ([], ts.tail)
    else
      match parse? bare n ts with
      | some (k, .colon :: ts) =>
        match parse? bare n ts with
        | some (v, .comma :: ts) => (parseEntries? bare n ts).map fun (es, ts) => ((k, v) :: es, ts)
        | some (v, .closing .curly :: ts) => some ([(k, v)], ts)
        | _ => none
      | _ => none

/-- Fields of a record up to the closing bracket. -/
def parseFields? (bare : Bool) : Nat → List Token → Option (List (Word × Value) × List Token)
  | 0, _ => none
  | n + 1, ts =>
    match ts with
    | .closing .round :: ts => some ([], ts)
    | .word w :: .colon :: ts =>
      match parse? bare n ts with
      | some (v, .comma :: ts) => (parseFields? bare n ts).map fun (fs, ts) => ((w, v) :: fs, ts)
      | some (v, .closing .round :: ts) => some ([(w, v)], ts)
      | _ => none
    | _ => none

end

/-- The value that all the tokens make up. Every step of the recursion but two in a row uses up a
    token, so the bound is never reached. -/
def ofTokens? (bare : Bool) (ts : List Token) : Option Value :=
  match parse? bare (3 * ts.length + 1) ts with
  | some (v, []) => some v
  | _ => none

/-! ### Nesting -/

mutual

/-- How many levels a value nests. Brackets take one level and what stands between them takes
    another; a wrapped value takes one. -/
def height : Value → Nat
  | .wrapped v => v.height + 1
  | .list items => itemsHeight items + 1
  | .map entries => entriesHeight entries + 1
  | .tuple _ items => itemsHeight items + 1
  | .record _ fields => fieldsHeight fields + 1
  | _ => 0

/-- The levels between the brackets of a list. -/
def itemsHeight : List Value → Nat
  | [] => 0
  | v :: vs => max (v.height + 1) (itemsHeight vs)

/-- The levels between the brackets of a map. -/
def entriesHeight : List (Value × Value) → Nat
  | [] => 0
  | (k, v) :: es => max (max (k.height + 1) (v.height + 1)) (entriesHeight es)

/-- The levels between the brackets of a record. -/
def fieldsHeight : List (Word × Value) → Nat
  | [] => 0
  | (_, v) :: fs => max (v.height + 1) (fieldsHeight fs)

end

/-! ### Writing -/

mutual

/-- The tokens of a value, without any spare comma. -/
def tokens : Value → List Token
  | .text s => [.text s]
  | .character c => [.character c]
  | .numeral run => [.numeral run]
  | .word w => [.word w]
  | .unit => [.unit]
  | .wrapped v => .word (.plain "Some") :: .opening .round :: v.tokens ++ [.closing .round]
  | .list items => .opening .square :: itemTokens items ++ [.closing .square]
  | .map entries => .opening .curly :: entryTokens entries ++ [.closing .curly]
  | .tuple name [] => (name.map Token.word).toList ++ [.unit]
  | .tuple name items =>
    (name.map Token.word).toList ++ .opening .round :: itemTokens items ++ [.closing .round]
  | .record name fields =>
    (name.map Token.word).toList ++ .opening .round :: fieldTokens fields ++ [.closing .round]

/-- Items with commas between them. -/
def itemTokens : List Value → List Token
  | [] => []
  | [v] => v.tokens
  | v :: vs => v.tokens ++ .comma :: itemTokens vs

/-- Map entries with commas between them. -/
def entryTokens : List (Value × Value) → List Token
  | [] => []
  | [(k, v)] => k.tokens ++ .colon :: v.tokens
  | (k, v) :: es => k.tokens ++ .colon :: v.tokens ++ .comma :: entryTokens es

/-- Fields with commas between them. -/
def fieldTokens : List (Word × Value) → List Token
  | [] => []
  | [(w, v)] => .word w :: .colon :: v.tokens
  | (w, v) :: fs => .word w :: .colon :: v.tokens ++ .comma :: fieldTokens fs

end

/-- The text of a value, with nothing between its tokens. -/
def render (v : Value) : List Char := Token.render v.tokens

end Value
end Terrain.Ron
