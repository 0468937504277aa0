import Mathlib.Data.List.Basic
import Terrain.Ron.Quoted

/-! ## Quoted text

What may be written between quotes, and that it reads as the text it stands for, up to the closing
quote and whatever follows it. The written form of any text is one of these. -/

namespace Terrain.Ron

/-! ### Code points -/

theorem hexDigit?_digitChar {d : Nat} (hd : d < 16) : hexDigit? d.digitChar = some d := by
  have hall : ∀ d : Fin 16, hexDigit? d.val.digitChar = some d.val := by decide
  exact hall ⟨d, hd⟩

theorem ofHex_concat (ds : List Char) {d : Nat} (hd : d < 16) :
    ofHex (ds ++ [d.digitChar]) = 16 * ofHex ds + d := by
  simp [ofHex, hexDigit?_digitChar hd]

theorem ofHex_toDigits (n : Nat) : ofHex (Nat.toDigits 16 n) = n := by
  induction n using Nat.strongRecOn with
  | ind n ih =>
    rw [Nat.toDigits_eq_if (by decide)]
    split
    · rename_i hn
      exact (ofHex_concat [] hn).trans (Nat.zero_add n)
    · rw [ofHex_concat _ (Nat.mod_lt n (by decide)), ih (n / 16) (by omega)]
      omega

theorem hexDigit?_of_mem_toDigits {n : Nat} {c : Char} (h : c ∈ Nat.toDigits 16 n) :
    (hexDigit? c).isSome = true := by
  induction n using Nat.strongRecOn with
  | ind n ih =>
    rw [Nat.toDigits_eq_if (by decide)] at h
    split at h
    · rename_i hn
      rw [List.mem_singleton.mp h, hexDigit?_digitChar hn]
      rfl
    · rcases List.mem_append.mp h with h | h
      · exact ih (n / 16) (by omega) h
      · rw [List.mem_singleton.mp h, hexDigit?_digitChar (Nat.mod_lt n (by decide))]
        rfl

/-- A code point has six hexadecimal digits at most. -/
theorem length_toDigits_toNat_le (c : Char) : (Nat.toDigits 16 c.toNat).length ≤ 6 := by
  refine (Nat.length_toDigits_le_iff (by decide) (by decide)).mpr ?_
  rcases c.valid with h | ⟨_, h⟩
  · exact Nat.lt_trans h (by decide)
  · exact Nat.lt_trans h (by decide)

theorem charOf?_toNat (c : Char) : charOf? c.toNat = some c := by
  unfold charOf?
  exact (if_pos c.valid).trans (congrArg some (Char.ofNat_toNat c))

/-! ### Escapes -/

/-- What may stand behind a backslash for a character: a letter or a sign for some of them, two
    digits for the lowest, and any code point between brackets. -/
inductive Escape : Char → List Char → Prop
  | quote : Escape '"' ['"']
  | apostrophe : Escape '\x27' ['\x27']
  | backslash : Escape '\\' ['\\']
  | newline : Escape '\n' ['n']
  | carriageReturn : Escape '\r' ['r']
  | tab : Escape '\t' ['t']
  | null : Escape '\x00' ['0']
  | byte {a b : Char} {m n : Nat} (ha : hexDigit? a = some m) (hb : hexDigit? b = some n) :
      Escape (Char.ofNat (16 * m + n)) ['x', a, b]
  | code {ds : List Char} {c : Char} (hne : ds ≠ []) (hlength : ds.length ≤ 6)
      (hdigits : ∀ d ∈ ds, (hexDigit? d).isSome = true) (hc : charOf? (ofHex ds) = some c) :
      Escape c ('u' :: '{' :: ds ++ ['}'])

/-- The digits of a code point end at the bracket. -/
theorem takeWhile_digits {ds : List Char} (hlength : ds.length ≤ 6)
    (hdigits : ∀ d ∈ ds, (hexDigit? d).isSome = true) (rest : List Char) :
    ((ds ++ '}' :: rest).take 6).takeWhile (fun c => (hexDigit? c).isSome) = ds := by
  rw [List.take_append, List.take_of_length_le hlength, List.takeWhile_append_of_pos hdigits]
  cases 6 - ds.length with
  | zero => simp
  | succ k => rw [List.take_succ_cons, List.takeWhile_cons_of_neg (by decide), List.append_nil]

theorem escape?_append {c : Char} {e : List Char} (h : Escape c e) (rest : List Char) :
    escape? (e ++ rest) = some (c, rest) := by
  cases h with
  | byte ha hb => simp [escape?, ha, hb]
  | @code ds _ hne hlength hdigits hc =>
    rw [List.append_assoc]
    change escape? ('u' :: '{' :: (ds ++ '}' :: rest)) = _
    simp only [escape?, takeWhile_digits hlength hdigits, List.drop_left]
    rw [if_neg hne, hc]
    rfl
  | quote | apostrophe | backslash | newline | carriageReturn | tab | null => rfl

theorem Escape.code_toDigits (c : Char) :
    Escape c ('u' :: '{' :: Nat.toDigits 16 c.toNat ++ ['}']) := by
  refine .code Nat.toDigits_ne_nil (length_toDigits_toNat_le c)
    (fun _ => hexDigit?_of_mem_toDigits) ?_
  rw [ofHex_toDigits, charOf?_toNat]

/-- A character is written as itself or as an escape. -/
theorem escaped_cases (c : Char) :
    (escaped c = [c] ∧ c ≠ '"' ∧ c ≠ '\\' ∧ c ≠ '\x27') ∨
      ∃ e, escaped c = '\\' :: e ∧ Escape c e := by
  unfold escaped
  split
  case h_1 => exact .inr ⟨_, rfl, .null⟩
  case h_2 => exact .inr ⟨_, rfl, .tab⟩
  case h_3 => exact .inr ⟨_, rfl, .carriageReturn⟩
  case h_4 => exact .inr ⟨_, rfl, .newline⟩
  case h_5 => exact .inr ⟨_, rfl, .apostrophe⟩
  case h_6 => exact .inr ⟨_, rfl, .quote⟩
  case h_7 => exact .inr ⟨_, rfl, .backslash⟩
  case h_8 hapostrophe hquote hbackslash =>
    split
    · exact .inr ⟨_, rfl, .code_toDigits c⟩
    · exact .inl ⟨rfl, hquote, hbackslash, hapostrophe⟩

/-! ### Text -/

/-- What may stand between quotes for a text: each character as itself or as an escape. -/
inductive QuotedBody : List Char → List Char → Prop
  | nil : QuotedBody [] []
  | plain {c : Char} {text body : List Char} (hquote : c ≠ '"') (hbackslash : c ≠ '\\')
      (h : QuotedBody text body) : QuotedBody (c :: text) (c :: body)
  | escape {c : Char} {e text body : List Char} (hc : Escape c e) (h : QuotedBody text body) :
      QuotedBody (c :: text) ('\\' :: e ++ body)

theorem quoted?_cons {c : Char} (hquote : c ≠ '"') (hbackslash : c ≠ '\\') (s : List Char) :
    quoted? (c :: s) = (quoted? s).map fun (text, rest) => (c :: text, rest) := by
  rw [quoted?]
  · exact fun h => hquote h
  · exact fun h => hbackslash h

theorem quoted?_backslash {c : Char} {s rest : List Char} (h : escape? s = some (c, rest)) :
    quoted? ('\\' :: s) = (quoted? rest).map fun (text, rest) => (c :: text, rest) := by
  rw [quoted?]
  split
  · rename_i heq
    rw [h] at heq
    cases heq
    rfl
  · rename_i heq
    rw [h] at heq
    cases heq

theorem quoted?_append {text body : List Char} (h : QuotedBody text body) (rest : List Char) :
    quoted? (body ++ '"' :: rest) = some (text, rest) := by
  induction h with
  | nil => rw [List.nil_append, quoted?]
  | plain hquote hbackslash _ ih =>
    rw [List.cons_append, quoted?_cons hquote hbackslash, ih]
    rfl
  | escape hc _ ih =>
    rw [List.cons_append, List.cons_append, List.append_assoc,
      quoted?_backslash (escape?_append hc _), ih]
    rfl

theorem quotedBody_escaped (text : List Char) : QuotedBody text (text.flatMap escaped) := by
  induction text with
  | nil => exact .nil
  | cons c text ih =>
    rw [List.flatMap_cons]
    rcases escaped_cases c with ⟨hplain, hquote, hbackslash, _⟩ | ⟨e, he, hescape⟩
    · rw [hplain]
      exact .plain hquote hbackslash ih
    · rw [he]
      exact .escape hescape ih

/-! ### Raw text -/

/-- No quote in the text has as many hash signs behind it as stand in front of the text. -/
def RawBody (hashes : Nat) (text : List Char) : Prop :=
  ∀ before after, text = before ++ '"' :: after → ¬List.replicate hashes '#' <+: after

theorem RawBody.tail {hashes : Nat} {c : Char} {text : List Char} (h : RawBody hashes (c :: text)) :
    RawBody hashes text := by
  rintro before after rfl
  exact h (c :: before) after rfl

/-- Hash signs do not go past a quote. -/
theorem take_ne_hashes {hashes : Nat} {after : List Char}
    (h : ¬List.replicate hashes '#' <+: after) (rest : List Char) :
    (after ++ '"' :: rest).take hashes ≠ List.replicate hashes '#' := by
  intro htake
  rcases Nat.lt_or_ge after.length hashes with hlt | hge
  · have hquote := congrArg (·[after.length]?) htake
    simp [hlt] at hquote
  · rw [List.take_append_of_le_length hge] at htake
    exact h (htake ▸ List.take_prefix hashes after)

theorem rawText?_append {hashes : Nat} {text : List Char} (h : RawBody hashes text)
    (rest : List Char) :
    rawText? hashes (text ++ '"' :: (List.replicate hashes '#' ++ rest)) = some (text, rest) := by
  induction text with
  | nil =>
    rw [List.nil_append, rawText?, List.take_left' List.length_replicate,
      List.drop_left' List.length_replicate]
    exact if_pos ⟨rfl, rfl⟩
  | cons c text ih =>
    rw [List.cons_append, rawText?, if_neg, ih h.tail]
    · rfl
    · rintro ⟨rfl, htake⟩
      exact take_ne_hashes (h [] text rfl) _ htake

/-! ### Characters -/

theorem character?_plain {c : Char} (hapostrophe : c ≠ '\x27') (hbackslash : c ≠ '\\')
    (rest : List Char) : character? (c :: '\x27' :: rest) = some (c, rest) := by
  unfold character?
  split
  · rename_i heq
    exact absurd (List.cons.inj heq).1 hapostrophe
  · rename_i heq
    exact absurd (List.cons.inj heq).1 hbackslash
  · rename_i heq
    cases heq
    rfl
  · rename_i hno
    exact absurd rfl (hno c rest)

theorem character?_escape {c : Char} {e : List Char} (h : Escape c e) (rest : List Char) :
    character? ('\\' :: (e ++ '\x27' :: rest)) = some (c, rest) := by
  simp only [character?, escape?_append h]

end Terrain.Ron
