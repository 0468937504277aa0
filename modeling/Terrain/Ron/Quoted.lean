import Terrain.Text.Escape

/-! ## Quoted text

Text between double quotes, with a backslash in front of what cannot stand for itself, and raw
text, in which everything stands for itself. -/

namespace Terrain.Ron

/-! ### Reading -/

/-- The value of a hexadecimal digit. -/
def hexDigit? (c : Char) : Option Nat :=
  if '0' ≤ c ∧ c ≤ '9' then some (c.toNat - '0'.toNat)
  else if 'a' ≤ c ∧ c ≤ 'f' then some (c.toNat - 'a'.toNat + 10)
  else if 'A' ≤ c ∧ c ≤ 'F' then some (c.toNat - 'A'.toNat + 10)
  else none

/-- The number that hexadecimal digits stand for. -/
def ofHex (ds : List Char) : Nat :=
  ds.foldl (fun n c => 16 * n + (hexDigit? c).getD 0) 0

/-- The character of a code point, if there is one. -/
def charOf? (n : Nat) : Option Char := if n.isValidChar then some (Char.ofNat n) else none

/-- The character that an escape stands for, read after its backslash, and what follows it. -/
def escape? : List Char → Option (Char × List Char)
  | '"' :: s => some ('"', s)
  | '\x27' :: s => some ('\x27', s)
  | '\\' :: s => some ('\\', s)
  | 'n' :: s => some ('\n', s)
  | 'r' :: s => some ('\r', s)
  | 't' :: s => some ('\t', s)
  | '0' :: s => some ('\x00', s)
  | 'x' :: a :: b :: s =>
    match hexDigit? a, hexDigit? b with
    | some m, some n => some (Char.ofNat (16 * m + n), s)
    | _, _ => none
  | 'u' :: '{' :: s =>
    let ds := (s.take 6).takeWhile fun c => (hexDigit? c).isSome
    match s.drop ds.length with
    | '}' :: rest => if ds = [] then none else (charOf? (ofHex ds)).map fun c => (c, rest)
    | _ => none
  | _ => none

theorem escape?_length {s rest : List Char} {c : Char} (h : escape? s = some (c, rest)) :
    rest.length < s.length := by
  unfold escape? at h
  split at h
  case h_8 =>
    split at h
    · cases h; simp only [List.length_cons]; omega
    · cases h
  case h_9 s =>
    dsimp only at h
    split at h
    case h_1 tail htail =>
      have hlen := congrArg List.length htail
      simp only [List.length_drop, List.length_cons] at hlen
      split at h
      · cases h
      · simp only [Option.map_eq_some_iff, Prod.mk.injEq] at h
        obtain ⟨_, _, _, rfl⟩ := h
        simp only [List.length_cons]
        omega
    case h_2 => cases h
  case h_10 => cases h
  all_goals
    cases h
    simp

/-- Quoted text after its opening quote: the text and what follows the closing quote. -/
def quoted? : List Char → Option (List Char × List Char)
  | [] => none
  | '"' :: s => some ([], s)
  | '\\' :: s =>
    match h : escape? s with
    | some (c, rest) =>
      have := escape?_length h
      (quoted? rest).map fun (text, rest) => (c :: text, rest)
    | none => none
  | c :: s => (quoted? s).map fun (text, rest) => (c :: text, rest)
termination_by s => s.length
decreasing_by all_goals (simp only [List.length_cons]; omega)

theorem quoted?_length {s text rest : List Char} (h : quoted? s = some (text, rest)) :
    rest.length < s.length := by
  fun_induction quoted? s generalizing text rest with
  | case1 => cases h
  | case2 s => cases h; simp
  | case3 s c tail htail hlen ih =>
    simp only [Option.map_eq_some_iff, Prod.mk.injEq, Prod.exists] at h
    obtain ⟨_, _, hq, _, rfl⟩ := h
    have := ih hq
    simp only [List.length_cons]
    omega
  | case4 => cases h
  | case5 c s _ _ ih =>
    simp only [Option.map_eq_some_iff, Prod.mk.injEq, Prod.exists] at h
    obtain ⟨_, _, hq, _, rfl⟩ := h
    have := ih hq
    simp only [List.length_cons]
    omega

/-- Raw text after its opening quote, up to the first quote that is followed by as many hash signs
    as stood in front. -/
def rawText? (hashes : Nat) : List Char → Option (List Char × List Char)
  | [] => none
  | c :: s =>
    if c = '"' ∧ s.take hashes = List.replicate hashes '#' then some ([], s.drop hashes)
    else (rawText? hashes s).map fun (text, rest) => (c :: text, rest)

theorem rawText?_length {hashes : Nat} {s text rest : List Char}
    (h : rawText? hashes s = some (text, rest)) : rest.length < s.length := by
  induction s generalizing text rest with
  | nil => cases h
  | cons c s ih =>
    unfold rawText? at h
    split at h
    · cases h
      simp only [List.length_cons, List.length_drop]
      omega
    · simp only [Option.map_eq_some_iff, Prod.mk.injEq, Prod.exists] at h
      obtain ⟨_, _, hq, _, rfl⟩ := h
      have := ih hq
      simp only [List.length_cons]
      omega

/-- A character after its opening apostrophe, up to the closing one. -/
def character? : List Char → Option (Char × List Char)
  | '\x27' :: _ => none
  | '\\' :: s =>
    match escape? s with
    | some (c, '\x27' :: rest) => some (c, rest)
    | _ => none
  | c :: '\x27' :: rest => some (c, rest)
  | _ => none

theorem character?_length {s rest : List Char} {c : Char} (h : character? s = some (c, rest)) :
    rest.length < s.length := by
  unfold character? at h
  split at h
  · cases h
  · rename_i s
    split at h
    · rename_i c tail he
      cases h
      have := escape?_length he
      simp only [List.length_cons] at this ⊢
      omega
    · cases h
  · cases h
    simp only [List.length_cons]
    omega
  · cases h

/-! ### Writing -/

/-- A character inside quotes. -/
def escaped (c : Char) : List Char :=
  match c with
  | '\x00' => ['\\', '0']
  | '\t' => ['\\', 't']
  | '\r' => ['\\', 'r']
  | '\n' => ['\\', 'n']
  | '\x27' => ['\\', '\x27']
  | '"' => ['\\', '"']
  | '\\' => ['\\', '\\']
  | c => if Text.isNumbered c then '\\' :: 'u' :: '{' :: Nat.toDigits 16 c.toNat ++ ['}'] else [c]

/-- Text between quotes. -/
def quote (text : List Char) : List Char := '"' :: text.flatMap escaped ++ ['"']

end Terrain.Ron
