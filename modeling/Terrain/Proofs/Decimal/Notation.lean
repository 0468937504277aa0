import Mathlib.Data.List.TakeWhile
import Terrain.Proofs.Decimal.Value

/-! ## Positional notation

A decimal in positional form reads back as its number: the digits on both sides of the point are
its digits, and the places behind the point are its exponent. -/

namespace Terrain.Decimal

/-! ### Digits -/

theorem ofDigits_eq (ds : List Char) : ofDigits ds = Nat.ofDigitChars 10 ds 0 := rfl

theorem ofDigits_digitsOf (n : Nat) : ofDigits (digitsOf n) = n :=
  Nat.ofDigitChars_ten_toDigits

theorem isDigit_of_mem_digitsOf {n : Nat} {c : Char} (h : c ∈ digitsOf n) : c.isDigit = true :=
  Nat.isDigit_of_mem_toDigits (by decide) (by decide) h

theorem ofDigits_append_zeros (ds : List Char) (k : Nat) :
    ofDigits (ds ++ List.replicate k '0') = ofDigits ds * 10 ^ k := by
  rw [ofDigits_eq, Nat.ofDigitChars_append, Nat.ofDigitChars_replicate_zero, mul_comm, ofDigits_eq]

theorem ofDigits_zeros_append (k : Nat) (ds : List Char) :
    ofDigits (List.replicate k '0' ++ ds) = ofDigits ds := by
  rw [ofDigits_eq, Nat.ofDigitChars_append, Nat.ofDigitChars_replicate_zero, mul_zero, ofDigits_eq]

/-- Digits and nothing else. -/
def AllDigits (ds : List Char) : Prop := ∀ c ∈ ds, c.isDigit = true

theorem allDigits_digitsOf (n : Nat) : AllDigits (digitsOf n) := fun _ => isDigit_of_mem_digitsOf

theorem allDigits_zeros (k : Nat) : AllDigits (List.replicate k '0') := by
  intro c hc
  rw [List.eq_of_mem_replicate hc]
  rfl

variable {ds es : List Char}

theorem AllDigits.append (hds : AllDigits ds) (hes : AllDigits es) :
    AllDigits (ds ++ es) := by
  intro c hc
  rcases List.mem_append.mp hc with hc | hc
  · exact hds c hc
  · exact hes c hc

theorem span_digits (hds : AllDigits ds) : ds.span Char.isDigit = (ds, []) := by
  rw [List.span_eq_takeWhile_dropWhile, List.takeWhile_eq_self_iff.mpr hds,
    List.dropWhile_eq_nil_iff.mpr hds]

theorem span_digits_point (hds : AllDigits ds) (rest : List Char) :
    (ds ++ '.' :: rest).span Char.isDigit = (ds, '.' :: rest) := by
  rw [List.span_eq_takeWhile_dropWhile, List.takeWhile_append_of_pos hds,
    List.dropWhile_append_of_pos hds, List.takeWhile_cons_of_neg (by decide),
    List.dropWhile_cons_of_neg (by decide), List.append_nil]

/-! ### Signs -/

/-- A numeral with a minus sign in front or without. -/
def signed (negative : Bool) (s : List Char) : List Char := if negative then '-' :: s else s

theorem signed_append (negative : Bool) (s t : List Char) :
    signed negative s ++ t = signed negative (s ++ t) := by
  cases negative <;> rfl

theorem splitSign_signed (negative : Bool) (hne : ds ≠ []) (hds : AllDigits ds)
    (rest : List Char) : splitSign (signed negative (ds ++ rest)) = (negative, ds ++ rest) := by
  obtain ⟨c, ds, rfl⟩ := List.exists_cons_of_ne_nil hne
  have hc : c.isDigit = true := hds c List.mem_cons_self
  cases negative with
  | true => rfl
  | false =>
    unfold signed splitSign
    split
    · rename_i heq
      obtain ⟨rfl, _⟩ := List.cons.inj heq
      exact absurd hc (by decide)
    · rename_i heq
      obtain ⟨rfl, _⟩ := List.cons.inj heq
      exact absurd hc (by decide)
    · rfl

/-! ### Reading -/

theorem ofChars?_whole (negative : Bool) (hne : ds ≠ []) (hds : AllDigits ds) :
    ofChars? (signed negative ds) = some ⟨negative, ofDigits ds, 0⟩ := by
  have hsign := splitSign_signed negative hne hds []
  rw [List.append_nil] at hsign
  unfold ofChars?
  rw [hsign]
  dsimp only
  rw [span_digits hds]
  dsimp only
  rw [List.append_nil, if_neg hne]
  rfl

theorem ofChars?_point (negative : Bool) {whole fraction : List Char} (hne : whole ≠ [])
    (hwhole : AllDigits whole) (hfraction : AllDigits fraction) :
    ofChars? (signed negative (whole ++ '.' :: fraction)) =
      some ⟨negative, ofDigits (whole ++ fraction), -fraction.length⟩ := by
  simp only [ofChars?, splitSign_signed negative hne hwhole, span_digits_point hwhole,
    span_digits hfraction, List.append_eq_nil_iff, hne, false_and, if_false, exponentOf?,
    Option.map_some, zero_sub]

/-! ### Writing -/

theorem positional_whole {d : Decimal} (h : 0 ≤ d.exponent) :
    d.positional =
      signed d.negative (digitsOf d.digits ++ List.replicate d.exponent.toNat '0') := by
  unfold positional
  dsimp only
  rw [if_pos h]
  rfl

theorem positional_point {d : Decimal} (h : d.exponent < 0) :
    ∃ whole fraction, whole ≠ [] ∧ AllDigits whole ∧ AllDigits fraction ∧
      ofDigits (whole ++ fraction) = d.digits ∧ (fraction.length : Int) = -d.exponent ∧
      d.positional = signed d.negative (whole ++ '.' :: fraction) := by
  have hplaces : ((-d.exponent).toNat : Int) = -d.exponent := by omega
  unfold positional
  dsimp only
  rw [if_neg (not_le.mpr h)]
  generalize hds : digitsOf d.digits = ds
  generalize (-d.exponent).toNat = places at *
  have hdigits : AllDigits ds := hds ▸ allDigits_digitsOf d.digits
  have hvalue : ofDigits ds = d.digits := hds ▸ ofDigits_digitsOf d.digits
  by_cases hinside : places < ds.length
  · -- The point stands among the digits.
    rw [if_pos hinside]
    refine ⟨ds.take (ds.length - places), ds.drop (ds.length - places), ?_, ?_, ?_, ?_, ?_, rfl⟩
    · rw [Ne, List.take_eq_nil_iff]
      rintro (h | h)
      · omega
      · rw [h] at hinside
        cases hinside
    · exact fun c hc => hdigits c (List.mem_of_mem_take hc)
    · exact fun c hc => hdigits c (List.mem_of_mem_drop hc)
    · rw [List.take_append_drop, hvalue]
    · rw [List.length_drop]
      omega
  · -- The point stands before them.
    rw [if_neg hinside]
    refine ⟨['0'], List.replicate (places - ds.length) '0' ++ ds, ?_, allDigits_zeros 1,
      (allDigits_zeros _).append hdigits, ?_, ?_, rfl⟩
    · exact List.cons_ne_nil _ _
    · exact (ofDigits_zeros_append (places - ds.length + 1) ds).trans hvalue
    · rw [List.length_append, List.length_replicate]
      omega

/-- What is written in positional form reads back as the same number. -/
theorem ofChars?_positional (d : Decimal) :
    (ofChars? d.positional).map toBinary64 = some d.toBinary64 := by
  by_cases h : 0 ≤ d.exponent
  · rw [positional_whole h, ofChars?_whole _ (by simp [digitsOf])
      ((allDigits_digitsOf _).append (allDigits_zeros _)), ofDigits_append_zeros,
      ofDigits_digitsOf, Option.map_some, toBinary64_shift, zero_add, Int.toNat_of_nonneg h]
  · obtain ⟨whole, fraction, hne, hwhole, hfraction, hvalue, hlength, hchars⟩ :=
      positional_point (not_le.mp h)
    rw [hchars, ofChars?_point _ hne hwhole hfraction, hvalue, hlength, neg_neg, Option.map_some]

/-- So does a whole number with a point and a zero behind it. -/
theorem ofChars?_positional_point {d : Decimal} (h : 0 ≤ d.exponent) :
    (ofChars? (d.positional ++ ['.', '0'])).map toBinary64 = some d.toBinary64 := by
  have hchars : d.positional ++ ['.', '0'] = signed d.negative
      (digitsOf d.digits ++ List.replicate d.exponent.toNat '0' ++ '.' :: ['0']) := by
    rw [positional_whole h, signed_append]
  have hzeros : digitsOf d.digits ++ List.replicate d.exponent.toNat '0' ++ ['0'] =
      digitsOf d.digits ++ List.replicate (d.exponent.toNat + 1) '0' := by
    rw [List.append_assoc, List.replicate_succ']
  have hexponent : -((['0'].length : Nat) : Int) + ((d.exponent.toNat + 1 : Nat) : Int) =
      d.exponent := by
    rw [List.length_singleton]
    omega
  have hread := ofChars?_point d.negative (by simp [digitsOf])
    ((allDigits_digitsOf d.digits).append (allDigits_zeros d.exponent.toNat)) (allDigits_zeros 1)
  rw [hchars]
  refine (congrArg (Option.map toBinary64) hread).trans ?_
  rw [List.replicate_one, hzeros, ofDigits_append_zeros, ofDigits_digitsOf, Option.map_some,
    toBinary64_shift, hexponent]

end Terrain.Decimal
