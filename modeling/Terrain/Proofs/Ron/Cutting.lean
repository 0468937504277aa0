import Terrain.Proofs.Ron.Token

/-! ## The texts of a list of tokens

Between tokens and around them may stand blanks and comments, and somewhere they have to: a word
runs into a word behind it. Whatever stands there, the text is cut into its tokens. Tokens may also
be written one after the other, with nothing between them, where no two of them run together. -/

namespace Terrain.Ron

/-! ### Blanks and comments -/

theorem afterComment?_append {depth : Nat} {s after : List Char}
    (h : afterComment? depth s = some after) (rest : List Char) :
    afterComment? depth (s ++ rest) = some (after ++ rest) := by
  fun_induction afterComment? depth s with
  | case1 s =>
    cases h
    rw [afterComment?]
  | case2 => cases h
  | case3 depth s ih =>
    rw [List.cons_append, List.cons_append, afterComment?]
    exact ih h
  | case4 depth s ih =>
    rw [List.cons_append, List.cons_append, afterComment?]
    exact ih h
  | case5 depth c s hopens hcloses ih =>
    -- The comment ends behind `c`, so what follows the text opens or closes nothing together
    -- with it.
    cases s with
    | nil => cases h
    | cons d s =>
      rw [List.cons_append, List.cons_append, afterComment?]
      · exact ih h
      · rintro s' rfl hs'
        exact hopens s rfl (congrArg (· :: s) (List.cons.inj hs').1)
      · rintro s' rfl hs'
        exact hcloses s rfl (congrArg (· :: s) (List.cons.inj hs').1)

/-- Blanks and comments, up to the end of a line or in brackets that nest. -/
inductive Blanks : List Char → Prop
  | nil : Blanks []
  | blank {c : Char} {s : List Char} (hc : isBlank c = true) (h : Blanks s) : Blanks (c :: s)
  | line {body s : List Char} (hbody : '\n' ∉ body) (h : Blanks s) :
      Blanks ('/' :: '/' :: body ++ '\n' :: s)
  | block {body s : List Char} (hbody : afterComment? 1 body = some []) (h : Blanks s) :
      Blanks ('/' :: '*' :: body ++ s)

/-- Blanks and comments hold no token. -/
theorem all?_blanks {s : List Char} (h : Blanks s) (rest : List Char) :
    Token.all? (s ++ rest) = Token.all? rest := by
  induction h with
  | nil => rfl
  | @blank c s hc _ ih =>
    have hslash : c ≠ '/' := by
      rintro rfl
      cases hc
    rw [List.cons_append, Token.all?, if_pos hc, ih]
    · exact fun _ h' => absurd h' hslash
    · exact fun _ h' => absurd h' hslash
  | @line body s hbody _ ih =>
    have hend : (body ++ '\n' :: (s ++ rest)).dropWhile (· != '\n') = '\n' :: (s ++ rest) := by
      rw [List.dropWhile_append_of_pos, List.dropWhile_cons_of_neg (by decide)]
      intro c hc
      exact bne_iff_ne.mpr fun h => hbody (h ▸ hc)
    rw [List.append_assoc, List.cons_append, List.cons_append, List.cons_append, Token.all?, hend,
      Token.all?, if_pos (show isBlank '\n' = true from rfl), ih]
    · exact fun _ h' => absurd h' (by decide)
    · exact fun _ h' => absurd h' (by decide)
  | @block body s hbody _ ih =>
    have hafter := afterComment?_append hbody (s ++ rest)
    rw [List.append_assoc, List.cons_append, List.cons_append, Token.all?]
    split
    · rename_i heq
      rw [hafter] at heq
      cases heq
      exact ih
    · rename_i heq
      rw [hafter] at heq
      cases heq

theorem Blanks.head_ne {s : List Char} (h : Blanks s) {rest : List Char}
    (hrest : rest.head? ≠ some ')') : (s ++ rest).head? ≠ some ')' := by
  cases h with
  | nil => exact hrest
  | @blank c s hc _ =>
    intro heq
    obtain rfl : c = ')' := Option.some.inj heq
    cases hc
  | line _ _ => exact fun heq => absurd (Option.some.inj heq) (by decide)
  | block _ _ => exact fun heq => absurd (Option.some.inj heq) (by decide)

namespace Token

/-! ### Texts and their tokens -/

/-- The texts of a list of tokens: a text of each, with blanks and comments before it, and where
    they are left out the text before ends all the same. -/
inductive Layout : List Token → List Char → Prop
  | nil {s : List Char} (h : Blanks s) : Layout [] s
  | cons {gap cs s : List Char} {t : Token} {ts : List Token} (hgap : Blanks gap)
      (ht : Spelled t cs) (hends : t.EndsAt s) (h : Layout ts s) :
      Layout (t :: ts) (gap ++ (cs ++ s))

/-- Nothing has to stand before a token. -/
theorem Layout.next {cs s : List Char} {t : Token} {ts : List Token} (ht : Spelled t cs)
    (hends : t.EndsAt s) (h : Layout ts s) : Layout (t :: ts) (cs ++ s) :=
  @Layout.cons [] cs s t ts .nil ht hends h

/-- A text is cut into its tokens. -/
theorem all?_layout {ts : List Token} {s : List Char} (h : Layout ts s) : all? s = some ts := by
  induction h with
  | @nil s h =>
    have hall := all?_blanks h []
    rw [List.append_nil] at hall
    rw [hall, all?]
  | cons hgap ht hends _ ih =>
    rw [all?_blanks hgap, all?_spelled ht hends, ih]
    rfl

/-- Tokens that a value can start with. -/
def startsValue : Token → Bool
  | .unit | .opening _ | .word _ | .numeral _ | .text _ | .character _ => true
  | _ => false

/-- The tokens start with one that can start a value. -/
def Begins (ts : List Token) : Prop := ∃ t us, ts = t :: us ∧ t.startsValue = true

theorem Begins.append {ts : List Token} (h : Begins ts) (us : List Token) : Begins (ts ++ us) := by
  obtain ⟨t, rest, rfl, hstarts⟩ := h
  exact ⟨t, rest ++ us, rfl, hstarts⟩

/-- The first token of a value closes no bracket. -/
theorem Begins.head?_ne {ts : List Token} (h : Begins ts) (rest : List Token) (close : Bracket) :
    (ts ++ rest).head? ≠ some (.closing close) := by
  obtain ⟨t, us, rfl, hstarts⟩ := h
  intro heq
  rw [Option.some.inj heq] at hstarts
  cases hstarts

theorem Layout.head_ne {ts : List Token} {s : List Char} (h : Layout ts s) (hts : Begins ts) :
    s.head? ≠ some ')' := by
  obtain ⟨t, us, rfl, hstarts⟩ := hts
  cases h with
  | cons hgap ht _ _ =>
    obtain ⟨c, s, rfl, _, _, hclosing⟩ := ht.head
    refine hgap.head_ne fun heq => ?_
    rw [hclosing (Option.some.inj heq)] at hstarts
    cases hstarts

/-! ### Tokens one after the other -/

theorem render_cons (t : Token) (ts : List Token) :
    render (t :: ts) = t.chars ++ render ts := rfl

theorem render_append (ts us : List Token) :
    render (ts ++ us) = render ts ++ render us := List.flatMap_append

/-- The tokens may be written one after the other in front of a text that stands apart. -/
def Joins (ts : List Token) : Prop :=
  ∀ us s, Layout us s → Apart s → Layout (ts ++ us) (render ts ++ s)

theorem Joins.nil : Joins [] := fun _ _ h _ => h

theorem Joins.cons {t : Token} {ts : List Token} (ht : Spelled t t.chars)
    (hends : ∀ s, Apart s → t.EndsAt (render ts ++ s)) (hts : Joins ts) : Joins (t :: ts) := by
  intro us s hs hapart
  rw [render_cons, List.append_assoc]
  exact .next ht (hends s hapart) (hts us s hs hapart)

theorem Joins.append {ts us : List Token} (hts : Joins ts)
    (hapart : ∀ s, Apart (render us ++ s)) (hus : Joins us) : Joins (ts ++ us) := by
  intro vs s hs hs'
  rw [render_append, List.append_assoc, List.append_assoc]
  exact hts _ _ (hus vs s hs hs') (hapart s)

theorem apart_of_isMark {t : Token} (h : t.isMark = true) (ts : List Token) (rest : List Char) :
    Apart (render (t :: ts) ++ rest) := by
  cases t with
  | opening bracket => cases bracket <;> exact apart_cons rfl (by decide) (by decide) _
  | closing bracket => cases bracket <;> exact apart_cons rfl (by decide) (by decide) _
  | unit | comma | colon => exact apart_cons rfl (by decide) (by decide) _
  | hash | bang | word | numeral | text | character => cases h

theorem Joins.before {t : Token} {ts us : List Token} (hts : Joins ts) (ht : t.isMark = true)
    (hus : Joins (t :: us)) : Joins (ts ++ t :: us) :=
  hts.append (apart_of_isMark ht us) hus

theorem Joins.comma {ts us : List Token} (hts : Joins ts) (hus : Joins us) :
    Joins (ts ++ .comma :: us) :=
  hts.before rfl (.cons (.mark rfl) (fun _ _ => trivial) hus)

theorem Joins.colon {ts us : List Token} (hts : Joins ts) (hus : Joins us) :
    Joins (ts ++ .colon :: us) :=
  hts.before rfl (.cons (.mark rfl) (fun _ _ => trivial) hus)

theorem Joins.unit : Joins [.unit] := .cons (.mark rfl) (fun _ _ => trivial) .nil

theorem Joins.word {w : Word} (hw : w.WellFormed) : Joins [.word w] :=
  .cons (.word hw) (fun _ h => h) .nil

/-- Brackets around tokens. Round ones need something between them. -/
theorem Joins.enclosed {ts : List Token} (hts : Joins ts) (bracket : Bracket)
    (hround : bracket = .round → Begins ts) :
    Joins (.opening bracket :: ts ++ [.closing bracket]) := by
  have hclosing : Joins [.closing bracket] :=
    .cons (.mark rfl) (fun _ _ => by cases bracket <;> trivial) .nil
  intro us s hs hapart
  have hinner := hts.before rfl hclosing us s hs hapart
  rw [List.cons_append, render_cons, List.append_assoc]
  refine .next (.mark rfl) ?_ hinner
  cases bracket with
  | round => exact hinner.head_ne (((hround rfl).append _).append us)
  | square => trivial
  | curly => trivial

end Token

/-! ### Names -/

/-- A name that can stand in front of brackets. -/
structure Word.IsName (w : Word) : Prop where
  wellFormed : w.WellFormed
  not_constant : w.isConstant = false
  not_some : w.isSome = false

namespace Token

theorem Begins.named (name : Option Word) {t : Token} (hstarts : t.startsValue = true)
    (ts : List Token) : Begins ((name.map Token.word).toList ++ t :: ts) := by
  cases name with
  | none => exact ⟨t, ts, rfl, hstarts⟩
  | some w => exact ⟨_, _, rfl, rfl⟩

/-- A name in front of brackets. -/
theorem Joins.named {name : Option Word} (hname : ∀ w ∈ name, w.IsName) {t : Token}
    {ts : List Token} (ht : t.isMark = true) (hts : Joins (t :: ts)) :
    Joins ((name.map Token.word).toList ++ t :: ts) := by
  cases name with
  | none => exact hts
  | some w => exact (Joins.word (hname w rfl).wellFormed).before ht hts

end Token
end Terrain.Ron
