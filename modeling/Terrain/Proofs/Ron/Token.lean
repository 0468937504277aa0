import Terrain.Proofs.Ron.Numeral
import Terrain.Proofs.Ron.Quoted

/-! ## The texts of a token

A text may be quoted or raw and a character escaped or not, the other tokens have one text each. A
token is cut off any of its texts whatever follows, as long as what follows cannot make it longer:
a word or a run may not meet more of a run, an opening round bracket not the closing one. -/

namespace Terrain.Ron

/-! ### Words -/

/-- A name that is cut off as one word. -/
def Word.WellFormed (w : Word) : Prop :=
  if w.raw then w.name.toList ≠ [] ∧ w.name.toList.all isRunPart = true
  else w.name.toList.head?.any isWordStart = true ∧ w.name.toList.all isWordPart = true

instance (w : Word) : Decidable w.WellFormed :=
  inferInstanceAs (Decidable (if w.raw then _ else _))

/-! ### What may follow -/

/-- What follows makes no word and no run longer, and makes no raw text of a word. -/
def Apart (rest : List Char) : Prop :=
  ∀ c ∈ rest.head?, isRunPart c = false ∧ c ≠ '"' ∧ c ≠ '#'

theorem apart_nil : Apart [] := fun _ h => nomatch h

theorem apart_cons {c : Char} (hpart : isRunPart c = false) (hquote : c ≠ '"') (hhash : c ≠ '#')
    (rest : List Char) : Apart (c :: rest) := by
  intro c' hc'
  obtain rfl : c = c' := Option.some.inj hc'
  exact ⟨hpart, hquote, hhash⟩

namespace Token

/-- Marks stand apart from whatever is before them. -/
def isMark : Token → Bool
  | .unit | .opening _ | .closing _ | .comma | .colon => true
  | _ => false

/-- The texts of a token. -/
inductive Spelled : Token → List Char → Prop
  | mark {t : Token} (h : t.isMark = true) : Spelled t t.chars
  | word {w : Word} (h : w.WellFormed) : Spelled (.word w) (Token.word w).chars
  | numeral {run : List Char} (h : Numeral.IsRun run) : Spelled (.numeral run) run
  | quoted {text body : List Char} (h : QuotedBody text body) :
      Spelled (.text (String.ofList text)) ('"' :: body ++ ['"'])
  | raw {hashes : Nat} {text : List Char} (h : RawBody hashes text) :
      Spelled (.text (String.ofList text))
        ('r' :: List.replicate hashes '#' ++ '"' :: text ++ '"' :: List.replicate hashes '#')
  | character {c : Char} (hapostrophe : c ≠ '\x27') (hbackslash : c ≠ '\\') :
      Spelled (.character c) ['\x27', c, '\x27']
  | escaped {c : Char} {e : List Char} (h : Escape c e) :
      Spelled (.character c) ('\x27' :: '\\' :: e ++ ['\x27'])

theorem spelled_text (s : String) : Spelled (.text s) (Token.text s).chars := by
  have h := Spelled.quoted (quotedBody_escaped s.toList)
  rw [String.ofList_toList] at h
  exact h

theorem spelled_character (c : Char) : Spelled (.character c) (Token.character c).chars := by
  rcases escaped_cases c with ⟨hplain, _, hbackslash, hapostrophe⟩ | ⟨e, he, hescape⟩
  · rw [chars, hplain]
    exact .character hapostrophe hbackslash
  · rw [chars, he]
    exact .escaped hescape

/-- What follows leaves the token as it is. -/
def EndsAt (rest : List Char) : Token → Prop
  | .word _ | .numeral _ => Apart rest
  | .opening .round => rest.head? ≠ some ')'
  | _ => True

/-! ### One token -/

theorem takeWhile_apart {p : Char → Bool} (hp : ∀ c, p c = true → isRunPart c = true)
    {s : List Char} (hs : ∀ c ∈ s, p c = true) {rest : List Char} (hrest : Apart rest) :
    (s ++ rest).takeWhile p = s ∧ (s ++ rest).dropWhile p = rest := by
  rw [List.takeWhile_append_of_pos hs, List.dropWhile_append_of_pos hs]
  cases rest with
  | nil => exact ⟨List.append_nil s, rfl⟩
  | cons c rest =>
    have hc : p c ≠ true := fun h => by
      have := (hrest c rfl).1
      rw [hp c h] at this
      cases this
    rw [List.takeWhile_cons_of_neg hc, List.dropWhile_cons_of_neg hc, List.append_nil]
    exact ⟨rfl, rfl⟩

theorem isRunPart_of_isWordPart {c : Char} (h : isWordPart c = true) : isRunPart c = true := by
  simp [isRunPart, h]

theorem word?_plain {name : String} (hname : ∀ c ∈ name.toList, isWordPart c = true)
    {rest : List Char} (hrest : Apart rest) :
    word? (name.toList ++ rest) = some (.word (.plain name), rest) := by
  obtain ⟨htake, hdrop⟩ := takeWhile_apart (fun _ => isRunPart_of_isWordPart) hname hrest
  unfold word?
  rw [htake, hdrop, String.ofList_toList]
  cases rest with
  | nil => rfl
  | cons c rest =>
    dsimp only
    rw [(hrest c rfl).1]
    rfl

theorem raw?_word {name : String} (hne : name.toList ≠ [])
    (hname : ∀ c ∈ name.toList, isRunPart c = true) {rest : List Char} (hrest : Apart rest) :
    raw? ('#' :: name.toList ++ rest) = some (.word ⟨name, true⟩, rest) := by
  obtain ⟨htake, hdrop⟩ := takeWhile_apart (fun _ => id) hname hrest
  obtain ⟨c, s, hs⟩ := List.exists_cons_of_ne_nil hne
  have hc : isRunPart c = true := hname c (hs ▸ List.mem_cons_self)
  have hhash : (c == '#') = false := beq_eq_false_iff_ne.mpr fun h => by
    rw [h] at hc
    cases hc
  have hhashes : (('#' :: name.toList ++ rest).takeWhile (· == '#')).length = 1 := by
    rw [hs, List.cons_append, List.cons_append, List.takeWhile_cons_of_pos rfl,
      List.takeWhile_cons_of_neg (by simp [hhash])]
    rfl
  unfold raw?
  dsimp only
  rw [hhashes, List.cons_append, List.drop_succ_cons, List.drop_zero]
  rw [hs, List.cons_append] at htake hdrop ⊢
  split
  · rename_i heq
    obtain ⟨rfl, _⟩ := List.cons.inj heq
    cases hc
  · rename_i heq
    obtain ⟨rfl, rfl⟩ := List.cons.inj heq
    rw [if_pos ⟨rfl, hc⟩, htake, hdrop, ← hs, String.ofList_toList]
  · rename_i heq
    cases heq

/-- A first character that belongs to no other token leads to a word or a run. -/
theorem first?_of_isWordStart {c : Char} (hc : isWordStart c = true) {s : List Char}
    (hquote : c = 'r' → s.head? ≠ some '"') (hhash : c = 'r' → s.head? ≠ some '#') :
    first? (c :: s) = word? (c :: s) := by
  unfold first?
  split
  case h_15 heq =>
    obtain ⟨rfl, rfl⟩ := List.cons.inj heq
    exact absurd rfl (hquote rfl)
  case h_16 heq =>
    obtain ⟨rfl, rfl⟩ := List.cons.inj heq
    exact absurd rfl (hhash rfl)
  case h_17 heq =>
    obtain ⟨rfl, rfl⟩ := List.cons.inj heq
    rw [if_pos hc]
  case h_1 heq => cases heq
  all_goals
    rename_i heq
    obtain ⟨rfl, _⟩ := List.cons.inj heq
    cases hc

theorem isAlpha_of_isDigit {c : Char} (hc : c.isDigit = true) : c.isAlpha = false := by
  have hdigit : c.val ≤ '9'.val := of_decide_eq_true (Bool.and_eq_true_iff.mp hc).2
  have hdigit' : c.val.toNat ≤ 57 := hdigit
  refine Bool.eq_false_iff.mpr fun halpha => ?_
  rcases Bool.or_eq_true_iff.mp halpha with hupper | hlower
  · have hletter : 'A'.val ≤ c.val ∧ c.val ≤ 'Z'.val := of_decide_eq_true hupper
    have hletter' : 65 ≤ c.val.toNat := hletter.1
    omega
  · have hletter : 'a'.val ≤ c.val := of_decide_eq_true (Bool.and_eq_true_iff.mp hlower).1
    have hletter' : 97 ≤ c.val.toNat := hletter
    omega

/-- No number starts like a word. -/
theorem isWordStart_of_isNumeralStart {c : Char} (hc : isNumeralStart c = true) :
    isWordStart c = false := by
  simp only [isNumeralStart, Bool.or_eq_true, beq_iff_eq] at hc
  rcases hc with ((hc | rfl) | rfl) | rfl
  · have hunderscore : c ≠ '_' := by
      rintro rfl
      cases hc
    rw [isWordStart, isAlpha_of_isDigit hc, Bool.false_or, beq_eq_false_iff_ne]
    exact hunderscore
  · rfl
  · rfl
  · rfl

theorem first?_of_isNumeralStart {c : Char} (hc : isNumeralStart c = true) (s : List Char) :
    first? (c :: s) = some (.numeral (c :: s.takeWhile isRunPart), s.dropWhile isRunPart) := by
  unfold first?
  split
  case h_17 heq =>
    obtain ⟨rfl, rfl⟩ := List.cons.inj heq
    rw [isWordStart_of_isNumeralStart hc, if_neg Bool.false_ne_true, if_pos hc]
  case h_1 heq => cases heq
  all_goals
    rename_i heq
    obtain ⟨rfl, _⟩ := List.cons.inj heq
    cases hc

theorem first?_opening {rest : List Char} (hrest : rest.head? ≠ some ')') :
    first? ('(' :: rest) = some (.opening .round, rest) := by
  cases rest with
  | nil => rfl
  | cons c rest =>
    rw [first?]
    rintro rest' h
    exact hrest (congrArg List.head? h)

theorem first?_word {w : Word} (hw : w.WellFormed) {rest : List Char} (hrest : Apart rest) :
    first? ((Token.word w).chars ++ rest) = some (.word w, rest) := by
  obtain ⟨name, raw⟩ := w
  cases raw with
  | true => exact raw?_word hw.1 (List.all_eq_true.mp hw.2) hrest
  | false =>
    have hstart : name.toList.head?.any isWordStart = true := hw.1
    have hparts : ∀ c ∈ name.toList, isWordPart c = true := List.all_eq_true.mp hw.2
    have hword := word?_plain hparts hrest
    change first? (name.toList ++ rest) = _
    generalize name.toList = s at *
    cases s with
    | nil => cases hstart
    | cons c s =>
      -- What follows the letter `r` belongs to the name or stands apart from it.
      have hhead : ∀ d ∈ (s ++ rest).head?, d ≠ '"' ∧ d ≠ '#' := by
        intro d hd
        cases s with
        | nil => exact (hrest d hd).2
        | cons d' s =>
          obtain rfl : d' = d := Option.some.inj hd
          have hpart := hparts d' (List.mem_cons_of_mem _ List.mem_cons_self)
          constructor <;> rintro rfl <;> cases hpart
      rw [List.cons_append, first?_of_isWordStart hstart (fun _ h => (hhead _ h).1 rfl)
        fun _ h => (hhead _ h).2 rfl]
      exact hword

theorem first?_numeral {run : List Char} (hrun : Numeral.IsRun run) {rest : List Char}
    (hrest : Apart rest) : first? (run ++ rest) = some (.numeral run, rest) := by
  obtain ⟨-, hstart, hparts⟩ := hrun
  cases run with
  | nil => cases hstart
  | cons c run =>
    obtain ⟨htake, hdrop⟩ := takeWhile_apart (fun _ => id)
      (fun d hd => hparts d (List.mem_cons_of_mem _ hd)) hrest
    rw [List.cons_append, first?_of_isNumeralStart hstart, htake, hdrop]

theorem first?_raw {hashes : Nat} {text : List Char} (h : RawBody hashes text)
    (rest : List Char) :
    first? ('r' :: (List.replicate hashes '#' ++
        '"' :: (text ++ '"' :: (List.replicate hashes '#' ++ rest)))) =
      some (.text (String.ofList text), rest) := by
  have hraw : raw? (List.replicate hashes '#' ++
      '"' :: (text ++ '"' :: (List.replicate hashes '#' ++ rest))) =
        some (.text (String.ofList text), rest) := by
    have hhashes : ((List.replicate hashes '#' ++
        '"' :: (text ++ '"' :: (List.replicate hashes '#' ++ rest))).takeWhile
          (· == '#')).length = hashes := by
      rw [List.takeWhile_append_of_pos (by simp), List.takeWhile_cons_of_neg (by decide),
        List.append_nil, List.length_replicate]
    unfold raw?
    dsimp only
    rw [hhashes, List.drop_left' List.length_replicate]
    exact congrArg (Option.map _) (rawText?_append h rest)
  cases hashes with
  | zero => exact hraw
  | succ hashes => exact hraw

/-- A token is cut off its text. -/
theorem first?_spelled {t : Token} {cs : List Char} (h : Spelled t cs) {rest : List Char}
    (hrest : t.EndsAt rest) : first? (cs ++ rest) = some (t, rest) := by
  cases h with
  | mark hmark =>
    cases t with
    | opening bracket =>
      cases bracket with
      | round => exact first?_opening hrest
      | square => rfl
      | curly => rfl
    | closing bracket => cases bracket <;> rfl
    | unit | comma | colon => rfl
    | hash | bang | word | numeral | text | character => cases hmark
  | word hw => exact first?_word hw hrest
  | numeral hrun => exact first?_numeral hrun hrest
  | @quoted text body hbody =>
    change (quoted? ((body ++ ['"']) ++ rest)).map _ = _
    rw [List.append_assoc, List.singleton_append, quoted?_append hbody]
    rfl
  | @raw hashes text hbody =>
    have hfirst := first?_raw hbody rest
    simpa only [List.cons_append, List.append_assoc] using hfirst
  | @character c hapostrophe hbackslash =>
    change (character? (c :: '\x27' :: rest)).map _ = _
    rw [character?_plain hapostrophe hbackslash]
    rfl
  | @escaped c e he =>
    change (character? ('\\' :: ((e ++ ['\x27']) ++ rest))).map _ = _
    rw [List.append_assoc, List.singleton_append, character?_escape he]
    rfl

/-! ### All tokens -/

theorem all?_of_first? {c : Char} {s rest : List Char} {t : Token} (hblank : isBlank c = false)
    (hslash : c ≠ '/') (h : first? (c :: s) = some (t, rest)) :
    all? (c :: s) = (all? rest).map (t :: ·) := by
  rw [all?]
  · rw [hblank, if_neg Bool.false_ne_true]
    split
    · rename_i heq
      rw [h] at heq
      cases heq
      rfl
    · rename_i heq
      rw [h] at heq
      cases heq
  · exact fun _ h' => absurd h' hslash
  · exact fun _ h' => absurd h' hslash

/-- No token starts with a blank or a slash, and only one with a closing bracket. -/
theorem Spelled.head {t : Token} {cs : List Char} (h : Spelled t cs) :
    ∃ c s, cs = c :: s ∧ isBlank c = false ∧ c ≠ '/' ∧ (c = ')' → t = .closing .round) := by
  have hpart : ∀ {c}, isRunPart c = true → isBlank c = false ∧ c ≠ '/' ∧ c ≠ ')' := by
    intro c hc
    refine ⟨Bool.eq_false_iff.mpr fun hblank => ?_, ?_, ?_⟩
    · simp only [isBlank, Bool.or_eq_true, beq_iff_eq] at hblank
      rcases hblank with ((rfl | rfl) | rfl) | rfl <;> cases hc
    · rintro rfl
      cases hc
    · rintro rfl
      cases hc
  have hrun : ∀ {s}, s.head?.any isNumeralStart = true ∨ s.head?.any isWordStart = true →
      (∀ c ∈ s, isRunPart c = true) →
        ∃ c rest, s = c :: rest ∧ isBlank c = false ∧ c ≠ '/' ∧
          (c = ')' → t = .closing .round) := by
    intro s hs hparts
    cases s with
    | nil => rcases hs with hs | hs <;> cases hs
    | cons c rest =>
      obtain ⟨hblank, hslash, hclosing⟩ := hpart (hparts c List.mem_cons_self)
      exact ⟨c, rest, rfl, hblank, hslash, fun h => absurd h hclosing⟩
  cases h with
  | mark hmark =>
    cases t with
    | opening bracket => cases bracket <;> exact ⟨_, _, rfl, rfl, by decide, by decide⟩
    | closing bracket => cases bracket <;> exact ⟨_, _, rfl, rfl, by decide, by decide⟩
    | unit | comma | colon => exact ⟨_, _, rfl, rfl, by decide, by decide⟩
    | hash | bang | word | numeral | text | character => cases hmark
  | @word w hw =>
    obtain ⟨name, raw⟩ := w
    cases raw with
    | true => exact ⟨_, _, rfl, rfl, by decide, fun h => absurd h (by decide)⟩
    | false =>
      exact hrun (.inr hw.1) fun c hc => isRunPart_of_isWordPart (List.all_eq_true.mp hw.2 c hc)
  | numeral hrun' => exact hrun (.inl hrun'.start) hrun'.parts
  | quoted _ => exact ⟨_, _, rfl, rfl, by decide, fun h => absurd h (by decide)⟩
  | raw _ => exact ⟨_, _, rfl, rfl, by decide, fun h => absurd h (by decide)⟩
  | character _ _ => exact ⟨_, _, rfl, rfl, by decide, fun h => absurd h (by decide)⟩
  | escaped _ => exact ⟨_, _, rfl, rfl, by decide, fun h => absurd h (by decide)⟩

/-- The tokens of a text that starts with a token. -/
theorem all?_spelled {t : Token} {cs : List Char} (h : Spelled t cs) {rest : List Char}
    (hrest : t.EndsAt rest) : all? (cs ++ rest) = (all? rest).map (t :: ·) := by
  obtain ⟨c, s, rfl, hblank, hslash, _⟩ := h.head
  exact all?_of_first? hblank hslash (first?_spelled h hrest)

end Token
end Terrain.Ron
