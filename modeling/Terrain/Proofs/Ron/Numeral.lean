import Terrain.Proofs.Decimal.Shortest
import Terrain.Ron.Field

/-! ## Written numerals read back

A written integer reads as that integer and a written double as that double. Each of them is one
run, which the cutter takes as a whole and which is a number where no kind of number is
expected. -/

namespace Terrain.Ron

open Decimal (AllDigits signed digitsOf ofDigits)

namespace Numeral

/-! ### Integers -/

theorem hexDigit?_of_isDigit {c : Char} (h : c.isDigit = true) :
    hexDigit? c = some (c.toNat - '0'.toNat) := by
  rw [Char.isDigit, Bool.and_eq_true, decide_eq_true_iff, decide_eq_true_iff] at h
  exact if_pos h

theorem hexDigit_lt_of_isDigit {c : Char} (h : c.isDigit = true) : c.toNat - '0'.toNat < 10 := by
  rw [Char.isDigit, Bool.and_eq_true, decide_eq_true_iff, decide_eq_true_iff] at h
  have hle : c.toNat ≤ '9'.toNat := h.2
  have hnine : '9'.toNat = '0'.toNat + 9 := rfl
  omega

theorem foldlM_digits {ds : List Char} (hds : AllDigits ds) (n : Nat) :
    ds.foldlM (fun n c => do
      let d ← hexDigit? c
      if d < 10 then some (10 * n + d) else none) n = some (Nat.ofDigitChars 10 ds n) := by
  induction ds generalizing n with
  | nil => rfl
  | cons c ds ih =>
    have hc := hds c List.mem_cons_self
    rw [List.foldlM_cons, hexDigit?_of_isDigit hc, Option.bind_eq_bind, Option.bind_some,
      if_pos (hexDigit_lt_of_isDigit hc), Option.bind_some]
    exact ih (fun c' hc' => hds c' (List.mem_cons_of_mem _ hc')) _

theorem digits?_allDigits {ds : List Char} (hne : ds ≠ []) (hds : AllDigits ds) :
    digits? 10 ds = some (ofDigits ds) := by
  have hplain : ds.filter (· != '_') = ds := by
    refine List.filter_eq_self.mpr fun c hc => bne_iff_ne.mpr ?_
    rintro rfl
    exact absurd (hds _ hc) (by decide)
  unfold digits?
  split
  · exact absurd rfl hne
  · exact absurd (hds _ List.mem_cons_self) (by decide)
  · rw [hplain, foldlM_digits hds]
    rfl

/-- Behind a leading zero only digits follow, so no base is named. -/
theorem natural?_allDigits {ds : List Char} (hne : ds ≠ []) (hds : AllDigits ds) :
    natural? ds = some (ofDigits ds) := by
  have hsecond : ∀ {a b : Char} {s : List Char}, ds = a :: b :: s → b.isDigit = true := by
    rintro a b s rfl
    exact hds b (List.mem_cons_of_mem _ List.mem_cons_self)
  unfold natural?
  split
  · exact absurd (hsecond rfl) (by decide)
  · exact absurd (hsecond rfl) (by decide)
  · exact absurd (hsecond rfl) (by decide)
  · exact digits?_allDigits hne hds

theorem integer?_signed (negative : Bool) {ds : List Char} (hne : ds ≠ []) (hds : AllDigits ds) :
    integer? (signed negative ds) =
      some (if negative then -(ofDigits ds : Int) else ofDigits ds) := by
  have hsign := Decimal.splitSign_signed negative hne hds []
  rw [List.append_nil] at hsign
  unfold integer?
  rw [hsign]
  dsimp only
  rw [natural?_allDigits hne hds]
  rfl

theorem digitsOf_ne_nil (n : Nat) : digitsOf n ≠ [] := Nat.toDigits_ne_nil

theorem toList_toString_nat (n : Nat) : (toString n).toList = digitsOf n := by
  rw [Nat.toString_eq_ofList_toDigits, String.toList_ofList]
  rfl

theorem toList_toString_int (n : Int) :
    (toString n).toList = signed (decide (n < 0)) (digitsOf n.natAbs) := by
  rw [Int.toString_eq_repr, Int.repr_eq_if]
  by_cases h : 0 ≤ n
  · rw [if_pos h, decide_eq_false (not_lt.mpr h), Nat.repr_eq_ofList_toDigits, String.toList_ofList,
      show n.toNat = n.natAbs by omega]
    rfl
  · rw [if_neg h, decide_eq_true (not_le.mp h), Nat.repr_eq_ofList_toDigits, String.toList_append,
      show (-n).toNat = n.natAbs by omega, String.toList_ofList, String.toList_ofList]
    rfl

theorem integer?_toString (n : Int) : integer? (toString n).toList = some n := by
  rw [toList_toString_int, integer?_signed _ (digitsOf_ne_nil _) (Decimal.allDigits_digitsOf _),
    Decimal.ofDigits_digitsOf]
  split
  · rename_i h
    have := of_decide_eq_true h
    congr 1
    omega
  · rename_i h
    have : ¬n < 0 := fun hneg => h (decide_eq_true hneg)
    congr 1
    omega

/-- A written word reads back. -/
theorem signed?_toString (n : Int32) : signed? (toString n.toInt).toList = some n := by
  unfold signed?
  rw [integer?_toString, Option.bind_some]
  exact int32?_eq_some_iff.mpr rfl

/-- A written word reads back. -/
theorem unsigned?_toString (n : UInt32) : unsigned? (toString n.toNat).toList = some n := by
  unfold unsigned?
  rw [toList_toString_nat, natural?_allDigits (digitsOf_ne_nil _) (Decimal.allDigits_digitsOf _),
    Decimal.ofDigits_digitsOf, Option.bind_some]
  exact uint32?_eq_some_iff.mpr rfl

/-! ### Doubles -/

/-- No word is a decimal numeral. -/
theorem special?_of_ofChars? {s : List Char} {d : Decimal} (h : Decimal.ofChars? s = some d) :
    special? s = none := by
  have hword : ∀ w ∈ ["inf", "+inf", "-inf", "NaN", "+NaN", "-NaN"], s ≠ w.toList := by
    rintro w hw rfl
    have hnone : ∀ w ∈ ["inf", "+inf", "-inf", "NaN", "+NaN", "-NaN"],
        Decimal.ofChars? w.toList = none := by
      decide +kernel
    rw [hnone w hw] at h
    cases h
  simp only [List.forall_mem_cons] at hword
  unfold special?
  rw [if_neg, if_neg, if_neg]
  all_goals tauto

theorem double?_of_ofChars? {s : List Char} {x : Binary64}
    (h : (Decimal.ofChars? s).map Decimal.toBinary64 = some x) : double? s = some x := by
  obtain ⟨d, hd, _⟩ := Option.map_eq_some_iff.mp h
  rw [double?, special?_of_ofChars? hd, h]
  rfl

/-- A written double reads back, with the sign of a zero, also when it is none or infinite. -/
theorem double?_ofDouble (x : Binary64) : double? (ofDouble x) = some x := by
  cases x with
  | nan => decide +kernel
  | infinite s => cases s <;> decide +kernel
  | finite s m e h =>
    refine double?_of_ofChars? ?_
    have hreads := congrArg some (Binary64.toBinary64_shortest s h)
    unfold ofDouble
    split
    · rename_i hwhole
      have hexponent := Binary64.exponent_shortest s h hwhole
      exact (Decimal.ofChars?_positional_point hexponent).trans hreads
    · exact (Decimal.ofChars?_positional _).trans hreads

/-! ### Runs -/

/-- A run that is cut off as a whole, and then is a number. -/
structure IsRun (run : List Char) : Prop where
  number : isNumber run = true
  start : run.head?.any isNumeralStart = true
  parts : ∀ c ∈ run, isRunPart c = true

theorem isRunPart_of_isDigit {c : Char} (h : c.isDigit = true) : isRunPart c = true := by
  simp [isRunPart, isWordPart, Char.isAlphanum, h]

theorem isNumeralStart_of_isDigit {c : Char} (h : c.isDigit = true) : isNumeralStart c = true := by
  simp [isNumeralStart, h]

/-- A sign, digits, and more of a run. -/
theorem IsRun.signed {negative : Bool} {ds rest : List Char} (hne : ds ≠ []) (hds : AllDigits ds)
    (hrest : ∀ c ∈ rest, isRunPart c = true)
    (hnumber : isNumber (signed negative (ds ++ rest)) = true) :
    IsRun (signed negative (ds ++ rest)) := by
  have hparts : ∀ c ∈ ds ++ rest, isRunPart c = true := by
    intro c hc
    rcases List.mem_append.mp hc with hc | hc
    · exact isRunPart_of_isDigit (hds c hc)
    · exact hrest c hc
  cases negative with
  | true =>
    refine ⟨hnumber, rfl, fun c hc => ?_⟩
    rcases List.mem_cons.mp hc with rfl | hc
    · rfl
    · exact hparts c hc
  | false =>
    obtain ⟨c, ds, rfl⟩ := List.exists_cons_of_ne_nil hne
    exact ⟨hnumber, isNumeralStart_of_isDigit (hds c List.mem_cons_self), hparts⟩

theorem isNumber_of_double? {s : List Char} {x : Binary64} (h : double? s = some x) :
    isNumber s = true := by
  unfold isNumber
  rw [h]
  rfl

theorem isRun_whole (negative : Bool) {ds : List Char} (hne : ds ≠ []) (hds : AllDigits ds) :
    IsRun (Decimal.signed negative ds) := by
  have hreads := Decimal.ofChars?_whole negative hne hds
  rw [← List.append_nil ds] at hreads ⊢
  exact .signed hne hds (fun _ h => nomatch h)
    (isNumber_of_double? (double?_of_ofChars? (congrArg (Option.map _) hreads)))

theorem isRun_toString_int (n : Int) : IsRun (toString n).toList := by
  rw [toList_toString_int]
  exact isRun_whole _ (digitsOf_ne_nil _) (Decimal.allDigits_digitsOf _)

theorem isRun_toString_nat (n : Nat) : IsRun (toString n).toList := by
  rw [toList_toString_nat]
  exact isRun_whole false (digitsOf_ne_nil _) (Decimal.allDigits_digitsOf _)

theorem isRun_positional (d : Decimal) {rest : List Char} (hrest : ∀ c ∈ rest, isRunPart c = true)
    (hnumber : isNumber (d.positional ++ rest) = true) : IsRun (d.positional ++ rest) := by
  by_cases h : 0 ≤ d.exponent
  · rw [Decimal.positional_whole h, Decimal.signed_append] at hnumber ⊢
    exact .signed (by simp [digitsOf])
      ((Decimal.allDigits_digitsOf _).append (Decimal.allDigits_zeros _)) hrest hnumber
  · obtain ⟨whole, fraction, hne, hwhole, hfraction, _, _, hchars⟩ :=
      Decimal.positional_point (not_le.mp h)
    rw [hchars, Decimal.signed_append, List.append_assoc] at hnumber ⊢
    refine .signed hne hwhole (fun c hc => ?_) hnumber
    rw [List.cons_append, List.mem_cons, List.mem_append] at hc
    rcases hc with rfl | hc | hc
    · rfl
    · exact isRunPart_of_isDigit (hfraction c hc)
    · exact hrest c hc

/-- A finite double is written as a run. -/
theorem isRun_ofDouble (s : Bool) {m : Nat} {e : Int} (h : Canonical m e) :
    IsRun (ofDouble (.finite s m e h)) := by
  have hnumber := isNumber_of_double? (double?_ofDouble (.finite s m e h))
  unfold ofDouble at hnumber ⊢
  split at hnumber
  · rename_i hwhole
    rw [if_pos hwhole]
    exact isRun_positional _ (List.all_eq_true.mp rfl) hnumber
  · rename_i hwhole
    rw [if_neg hwhole]
    rw [← List.append_nil (Binary64.toChars _)] at hnumber ⊢
    exact isRun_positional _ (fun _ hc => absurd hc List.not_mem_nil) hnumber

end Numeral
end Terrain.Ron
