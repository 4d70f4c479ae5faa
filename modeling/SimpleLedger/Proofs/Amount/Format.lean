import SimpleLedger.Proofs.Amount.Scaling

/-!
# Quantities in decimal

`Amount.format` pads the digits of a quantity, puts the point into them and drops zeros.

* `Amount.isCanonical_format` and `Amount.denoted_format`: the result is the canonical text of the
  quantity divided by the unit.
* `Amount.toRaw_format` and `Amount.denotes_format_of_toRaw`: formatting and scaling undo each
  other, up to the many texts that denote one number.
* `Amount.format_exact` puts these together.
-/

set_option autoImplicit false

namespace SimpleLedger
namespace Amount

variable {raw q : UInt64} {decimals : UInt8} {token : Descriptor} {amount : String}

/-! ## The padded digits -/

theorem width_le_length_paddedDigits (width n : ℕ) : width ≤ (paddedDigits width n).length := by
  rw [paddedDigits, List.length_append, List.length_replicate]
  omega

theorem digits_paddedDigits (width n : ℕ) : Digits (paddedDigits width n) :=
  Digits.append_iff.2 ⟨Digits.replicate_zero _, (isWhole_toDigits n).digits⟩

theorem ofDigitChars_paddedDigits (width n : ℕ) :
    Nat.ofDigitChars 10 (paddedDigits width n) 0 = n := by
  rw [paddedDigits, Nat.ofDigitChars_append, Nat.ofDigitChars_replicate_zero, Nat.mul_zero,
    Nat.ofDigitChars_ten_toDigits]

/-! ## Both sides of the point -/

/-- The digits of `n` before the last `places`. -/
def wholeDigits (places n : ℕ) : List Char :=
  (paddedDigits (places + 1) n).take ((paddedDigits (places + 1) n).length - places)

/-- The last digits of `n`, as many as there are places. -/
def placeDigits (places n : ℕ) : List Char :=
  (paddedDigits (places + 1) n).drop ((paddedDigits (places + 1) n).length - places)

theorem toList_format (raw : UInt64) (decimals : UInt8) :
    (format raw decimals).toList = pointed (wholeDigits decimals.toNat raw.toNat)
      (Text.dropTrailing (· = '0') (placeDigits decimals.toNat raw.toNat)) :=
  String.toList_ofList

theorem length_placeDigits (places n : ℕ) : (placeDigits places n).length = places := by
  have hle := width_le_length_paddedDigits (places + 1) n
  rw [placeDigits, List.length_drop]
  omega

theorem digits_placeDigits (places n : ℕ) : Digits (placeDigits places n) := fun c hc =>
  digits_paddedDigits _ n c (List.mem_of_mem_drop hc)

/-- There is a zero before the point only where there are no other digits. -/
theorem isWhole_wholeDigits (places n : ℕ) : IsWhole (wholeDigits places n) := by
  rw [wholeDigits]
  rcases Nat.lt_or_ge places (Nat.toDigits 10 n).length with hlt | hle
  · have hpadded : paddedDigits (places + 1) n = Nat.toDigits 10 n := by
      rw [paddedDigits, Nat.sub_eq_zero_of_le hlt, List.replicate_zero, List.nil_append]
    rw [hpadded]
    exact (isWhole_toDigits n).take (by omega)
  · have hpadded : paddedDigits (places + 1) n =
        '0' :: (List.replicate (places - (Nat.toDigits 10 n).length) '0' ++ Nat.toDigits 10 n) := by
      rw [paddedDigits, Nat.succ_sub hle, List.replicate_succ, List.cons_append]
    have hlength : (paddedDigits (places + 1) n).length - places = 1 := by
      rw [hpadded, List.length_cons, List.length_append, List.length_replicate]
      omega
    rw [hlength, hpadded]
    exact isWhole_toDigits 0

theorem ofDigitChars_whole_place (places n : ℕ) :
    10 ^ places * Nat.ofDigitChars 10 (wholeDigits places n) 0 +
      Nat.ofDigitChars 10 (placeDigits places n) 0 = n := by
  have hsplit := Digits.ofDigitChars_append_eq (wholeDigits places n) (placeDigits places n)
  rwa [length_placeDigits, wholeDigits, placeDigits, List.take_append_drop,
    ofDigitChars_paddedDigits, eq_comm] at hsplit

/-! ## The text -/

theorem isCanonical_format (raw : UInt64) (decimals : UInt8) :
    IsCanonical (format raw decimals).toList := by
  rw [toList_format]
  exact isCanonical_pointed (isWhole_wholeDigits _ _)
    (isFraction_dropTrailing (digits_placeDigits _ _))

theorem denoted_format (raw : UInt64) (decimals : UInt8) :
    denoted (format raw decimals).toList = raw.toNat / 10 ^ decimals.toNat := by
  have hraw := ofDigitChars_whole_place decimals.toNat raw.toNat
  rw [toList_format, denoted_pointed (isWhole_wholeDigits _ _).digits
    (isFraction_dropTrailing (digits_placeDigits _ _)).digits, quotient_dropTrailing,
    length_placeDigits]
  conv_rhs => rw [← hraw, Nat.cast_add, Nat.cast_mul, Nat.cast_pow, Nat.cast_ofNat]
  field_simp

theorem denotes_format (raw : UInt64) (decimals : UInt8) :
    Denotes (format raw decimals) (raw.toNat / 10 ^ decimals.toNat) := by
  have hdecimal := (isCanonical_format raw decimals).decimal
  rw [Denotes, hdecimal.trim_eq]
  exact ⟨hdecimal, denoted_format raw decimals⟩

/-! ## Back and forth -/

theorem toRaw_format (hd : token.decimals ≤ 9) (raw : UInt64) :
    token.toRaw (format raw token.decimals) = .ok raw := by
  have hle : (raw.toNat : ℚ) ≤ maxQuantity := by exact_mod_cast toNat_le_maxQuantity raw
  have hunit : (1 : ℚ) ≤ 10 ^ token.decimals.toNat := one_le_pow₀ (by norm_num)
  rw [Descriptor.toRaw_eq_ok_iff]
  refine ⟨hd, _, denotes_format raw token.decimals, ?_, fun _ => ?_, fun hzero => ?_⟩
  · exact (div_le_self (Nat.cast_nonneg _) hunit).trans hle
  · exact div_mul_cancel₀ _ (by positivity)
  · rw [hzero, UInt8.toNat_zero, pow_zero, div_one, Nat.floor_natCast]

theorem denotes_format_of_toRaw (hpos : 1 ≤ token.decimals) (h : token.toRaw amount = .ok q) :
    Denotes amount (denoted (format q token.decimals).toList) := by
  obtain ⟨-, v, hv, -, hscaled, -⟩ := Descriptor.toRaw_eq_ok_iff.1 h
  rwa [denoted_format, ← hscaled hpos, mul_div_cancel_right₀ _ (by positivity)]

/-- **A quantity is written in one way.**  The text of `raw` units is the canonical one for
`raw / 10 ^ decimals`, and no other is; the place of the point is always within the digits, which
are ASCII.  Scaling the text gives `raw` again, and formatting what an amount is scaled to gives the
canonical text for the number that the amount denotes. -/
theorem format_exact :
    (∀ (raw : UInt64) (decimals : UInt8),
      decimals.toNat < (paddedDigits (decimals.toNat + 1) raw.toNat).length ∧
      Digits (paddedDigits (decimals.toNat + 1) raw.toNat) ∧
      IsCanonical (format raw decimals).toList ∧
      denoted (format raw decimals).toList = raw.toNat / 10 ^ decimals.toNat ∧
      ∀ cs, IsCanonical cs → denoted cs = raw.toNat / 10 ^ decimals.toNat →
        cs = (format raw decimals).toList) ∧
    (∀ (token : Descriptor) (raw : UInt64), token.decimals ≤ 9 →
      token.toRaw (format raw token.decimals) = .ok raw) ∧
    ∀ (token : Descriptor) (amount : String) (q : UInt64), 1 ≤ token.decimals →
      token.toRaw amount = .ok q →
      IsCanonical (format q token.decimals).toList ∧
        Denotes amount (denoted (format q token.decimals).toList) := by
  refine ⟨fun raw decimals => ⟨width_le_length_paddedDigits _ _, digits_paddedDigits _ _,
    isCanonical_format raw decimals, denoted_format raw decimals, fun cs hcs hvalue => ?_⟩,
    fun token raw hd => toRaw_format hd raw, fun token amount q hpos h =>
      ⟨isCanonical_format q token.decimals, denotes_format_of_toRaw hpos h⟩⟩
  exact hcs.eq_of_denoted_eq (isCanonical_format raw decimals)
    (hvalue.trans (denoted_format raw decimals).symm)

theorem format_exact_sample :
    format 1250000000 8 = "12.5" ∧ Descriptor.sample.toRaw (format 1250000000 8) = .ok 1250000000 ∧
      Denotes "012.50" (denoted "12.5".toList) := by
  obtain ⟨-, hback, hforth⟩ := format_exact
  have htext : format 1250000000 8 = "12.5" := by decide +kernel
  have hscaled : Descriptor.sample.toRaw "012.50" = .ok 1250000000 := by decide +kernel
  have hdecimals : Descriptor.sample.decimals = 8 := rfl
  obtain ⟨-, hdenotes⟩ := hforth .sample "012.50" 1250000000 (by decide) hscaled
  rw [hdecimals, htext] at hdenotes
  exact ⟨htext, hback .sample 1250000000 (by decide), hdenotes⟩

end Amount
end SimpleLedger
