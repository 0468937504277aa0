import Terrain.Ron.Quoted

/-! ## Tokens

The first stage of reading: text is cut into tokens, and the blanks and comments between them are
dropped. Every token is as long as it can be, so round brackets with nothing at all between them
are one token. -/

namespace Terrain.Ron

/-- A pair of brackets. -/
inductive Bracket where
  | round
  | square
  | curly
  deriving DecidableEq, Inhabited

/-- A name. A raw name is written behind `r#` and may hold points and signs. -/
structure Word where
  name : String
  raw : Bool
  deriving DecidableEq, Inhabited

namespace Word

/-- The plain word of a name. -/
def plain (name : String) : Word := ⟨name, false⟩

/-- The words that never have brackets behind them. -/
def isConstant (w : Word) : Bool :=
  !w.raw && ["true", "false", "None", "inf", "NaN"].contains w.name

/-- The word that stands in front of a wrapped value. -/
def isSome (w : Word) : Bool := !w.raw && w.name == "Some"

end Word

/-- A token. -/
inductive Token where
  /-- Round brackets with nothing between them. -/
  | unit
  | opening (bracket : Bracket)
  | closing (bracket : Bracket)
  | comma
  | colon
  | hash
  | bang
  | word (w : Word)
  | numeral (run : List Char)
  | text (s : String)
  | character (c : Char)
  deriving DecidableEq, Inhabited

/-! ### Character classes -/

/-- Blanks between tokens. -/
def isBlank (c : Char) : Bool := c == ' ' || c == '\t' || c == '\n' || c == '\r'

/-- First characters of a word. -/
def isWordStart (c : Char) : Bool := c.isAlpha || c == '_'

/-- Further characters of a word. -/
def isWordPart (c : Char) : Bool := c.isAlphanum || c == '_'

/-- Characters of a raw word, and of the longest run that can hold a number. -/
def isRunPart (c : Char) : Bool := isWordPart c || c == '.' || c == '+' || c == '-'

/-- First characters of a number. -/
def isNumeralStart (c : Char) : Bool := c.isDigit || c == '.' || c == '+' || c == '-'

/-! ### Comments -/

/-- What follows a block comment, inside `depth` of which the text begins. Comments nest. -/
def afterComment? : Nat → List Char → Option (List Char)
  | 0, s => some s
  | _ + 1, [] => none
  | depth + 1, '/' :: '*' :: s => afterComment? (depth + 2) s
  | depth + 1, '*' :: '/' :: s => afterComment? depth s
  | depth + 1, _ :: s => afterComment? (depth + 1) s

theorem afterComment?_length {depth : Nat} {s rest : List Char}
    (h : afterComment? depth s = some rest) : rest.length ≤ s.length := by
  fun_induction afterComment? depth s with
  | case1 s => cases h; exact Nat.le_refl _
  | case2 => cases h
  | case3 depth s ih => have := ih h; simp only [List.length_cons]; omega
  | case4 depth s ih => have := ih h; simp only [List.length_cons]; omega
  | case5 depth c s _ _ ih => have := ih h; simp only [List.length_cons]; omega

/-! ### One token -/

/-- A word at the start of the text. It may not run into a point or a sign, unless a wrapped number
    can begin there. -/
def word? (s : List Char) : Option (Token × List Char) :=
  let w := Word.plain (String.ofList (s.takeWhile isWordPart))
  match s.dropWhile isWordPart with
  | c :: rest => if isRunPart c && !w.isSome then none else some (.word w, c :: rest)
  | [] => some (.word w, [])

/-- What can follow a letter `r` with hash signs behind it: raw text, or a raw word behind a
    single hash sign. -/
def raw? (s : List Char) : Option (Token × List Char) :=
  let hashes := (s.takeWhile (· == '#')).length
  match s.drop hashes with
  | '"' :: rest =>
    (rawText? hashes rest).map fun (body, rest) => (.text (String.ofList body), rest)
  | c :: rest =>
    -- More than one hash sign can only stand in front of raw text.
    if hashes = 1 ∧ isRunPart c then
      some (.word ⟨String.ofList ((c :: rest).takeWhile isRunPart), true⟩,
        (c :: rest).dropWhile isRunPart)
    else none
  | [] => none

/-- The token at the start of the text, and what follows it. -/
def Token.first? : List Char → Option (Token × List Char)
  | [] => none
  | '(' :: ')' :: s => some (.unit, s)
  | '(' :: s => some (.opening .round, s)
  | ')' :: s => some (.closing .round, s)
  | '[' :: s => some (.opening .square, s)
  | ']' :: s => some (.closing .square, s)
  | '{' :: s => some (.opening .curly, s)
  | '}' :: s => some (.closing .curly, s)
  | ',' :: s => some (.comma, s)
  | ':' :: s => some (.colon, s)
  | '#' :: s => some (.hash, s)
  | '!' :: s => some (.bang, s)
  | '"' :: s => (quoted? s).map fun (body, rest) => (.text (String.ofList body), rest)
  | '\x27' :: s => (character? s).map fun (c, rest) => (.character c, rest)
  | 'r' :: '"' :: s => raw? ('"' :: s)
  | 'r' :: '#' :: s => raw? ('#' :: s)
  | c :: s =>
    if isWordStart c then word? (c :: s)
    else if isNumeralStart c then
      some (.numeral (c :: s.takeWhile isRunPart), s.dropWhile isRunPart)
    else none

private theorem length_dropWhile_le (p : Char → Bool) (s : List Char) :
    (s.dropWhile p).length ≤ s.length := by
  induction s with
  | nil => simp
  | cons c s ih =>
    rw [List.dropWhile_cons]
    split
    · simp only [List.length_cons]; omega
    · exact Nat.le_refl _

theorem isWordPart_of_isWordStart {c : Char} (h : isWordStart c = true) : isWordPart c = true := by
  simp only [isWordStart, isWordPart, Char.isAlphanum, Bool.or_eq_true] at h ⊢
  rcases h with h | h
  · exact .inl (.inl h)
  · exact .inr h

private theorem word?_length {s rest : List Char} {c : Char} {t : Token} (hc : isWordPart c = true)
    (h : word? (c :: s) = some (t, rest)) : rest.length ≤ s.length := by
  have hle := length_dropWhile_le isWordPart s
  unfold word? at h
  simp only [List.dropWhile_cons, hc, if_true] at h
  split at h
  · rename_i d tail htail
    split at h
    · cases h
    · cases h; rw [← htail]; exact hle
  · cases h; exact Nat.zero_le _

private theorem raw?_length {s rest : List Char} {t : Token} (h : raw? s = some (t, rest)) :
    rest.length ≤ s.length := by
  unfold raw? at h
  dsimp only at h
  split at h
  · rename_i tail htail
    simp only [Option.map_eq_some_iff, Prod.mk.injEq, Prod.exists] at h
    obtain ⟨_, _, hq, _, rfl⟩ := h
    have hlen := congrArg List.length htail
    simp only [List.length_drop, List.length_cons] at hlen
    have := rawText?_length hq
    omega
  · rename_i c tail _ htail
    split at h
    · cases h
      have hlen := congrArg List.length htail
      have hle := length_dropWhile_le isRunPart (c :: tail)
      simp only [List.length_drop, List.length_cons] at hlen hle
      omega
    · cases h
  · cases h

/-- A token is never empty. -/
theorem Token.first?_length {s rest : List Char} {t : Token} (h : first? s = some (t, rest)) :
    rest.length < s.length := by
  unfold first? at h
  split at h
  case h_1 => cases h
  case h_13 =>
    simp only [Option.map_eq_some_iff, Prod.mk.injEq, Prod.exists] at h
    obtain ⟨_, _, hq, _, rfl⟩ := h
    have := quoted?_length hq
    simp only [List.length_cons]; omega
  case h_14 =>
    simp only [Option.map_eq_some_iff, Prod.mk.injEq, Prod.exists] at h
    obtain ⟨_, _, hq, _, rfl⟩ := h
    have := character?_length hq
    simp only [List.length_cons]; omega
  case h_15 => have := raw?_length h; simp only [List.length_cons] at this ⊢; omega
  case h_16 => have := raw?_length h; simp only [List.length_cons] at this ⊢; omega
  case h_17 =>
    split at h
    · rename_i hc
      have := word?_length (isWordPart_of_isWordStart hc) h
      simp only [List.length_cons]; omega
    · split at h
      · cases h
        have := length_dropWhile_le isRunPart
        simp only [List.length_cons]
        exact Nat.lt_succ_of_le (this _)
      · cases h
  all_goals
    cases h
    simp only [List.length_cons]
    omega

/-! ### All tokens -/

/-- The tokens of a text. -/
def Token.all? : List Char → Option (List Token)
  | [] => some []
  | '/' :: '/' :: s =>
    have := length_dropWhile_le (· != '\n') s
    all? (s.dropWhile (· != '\n'))
  | '/' :: '*' :: s =>
    match h : afterComment? 1 s with
    | some rest =>
      have := afterComment?_length h
      all? rest
    | none => none
  | c :: s =>
    if isBlank c then all? s
    else
      match h : first? (c :: s) with
      | some (t, rest) =>
        have := first?_length h
        (all? rest).map (t :: ·)
      | none => none
termination_by s => s.length
decreasing_by all_goals (simp only [List.length_cons] at *; omega)

/-- The text of a token. -/
def Token.chars : Token → List Char
  | .unit => ['(', ')']
  | .opening .round => ['(']
  | .closing .round => [')']
  | .opening .square => ['[']
  | .closing .square => [']']
  | .opening .curly => ['{']
  | .closing .curly => ['}']
  | .comma => [',']
  | .colon => [':']
  | .hash => ['#']
  | .bang => ['!']
  | .word w => if w.raw then 'r' :: '#' :: w.name.toList else w.name.toList
  | .numeral run => run
  | .text s => quote s.toList
  | .character c => '\x27' :: escaped c ++ ['\x27']

/-- Tokens written one after the other, with nothing between them. -/
def Token.render (ts : List Token) : List Char := ts.flatMap chars

end Terrain.Ron
