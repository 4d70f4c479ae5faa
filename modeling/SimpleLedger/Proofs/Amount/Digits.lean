import SimpleLedger.Proofs.Text.Blank
import SimpleLedger.Token.Amount

/-!
# Digits as numbers

A list of digits is read as a number in front of the point, and as a number of decimal places after
it.  Many lists stand for one number, as zeros may be added at one end.

* `IsWhole.eq_toDigits`: without superfluous zeros in front, the digits of a whole number are the
  ones that it is written with.
* `IsFraction.eq_of_quotient_eq`: without zeros at the end, the digits of a fraction are determined
  by the fraction.
* `isFraction_dropTrailing`, `quotient_dropTrailing`: dropping the zeros at the end leaves the same
  fraction.
-/

set_option autoImplicit false

namespace SimpleLedger

/-- Nothing but ASCII digits. -/
def Digits (ds : List Char) : Prop := ∀ c ∈ ds, c.isDigit = true

namespace Digits

variable {as bs ds : List Char} {c d : Char}

/-! ## One digit -/

theorem toNat_sub_lt (h : c.isDigit = true) : c.toNat - 48 < 10 := by
  have hc := Char.isDigit_iff_toNat.1 h
  simp only [Char.reduceToNat] at hc
  omega

theorem eq_of_toNat_sub_eq (hc : c.isDigit = true) (hd : d.isDigit = true)
    (h : c.toNat - 48 = d.toNat - 48) : c = d := by
  have hc := Char.isDigit_iff_toNat.1 hc
  have hd := Char.isDigit_iff_toNat.1 hd
  simp only [Char.reduceToNat] at hc hd
  exact Char.toNat_inj.1 (by omega)

theorem ne_point (h : c.isDigit = true) : c ≠ '.' := by
  rintro rfl
  exact absurd h (by decide)

/-! ## Lists of digits -/

theorem append_iff : Digits (as ++ bs) ↔ Digits as ∧ Digits bs := List.forall_mem_append

theorem replicate_zero (n : Nat) : Digits (List.replicate n '0') := by
  intro c hc
  rw [List.eq_of_mem_replicate hc]
  rfl

theorem exists_eq_replicate_zero (h : ∀ c ∈ ds, decide (c = '0') = true) :
    ∃ n, ds = List.replicate n '0' :=
  ⟨ds.length, List.eq_replicate_iff.2 ⟨rfl, fun c hc => of_decide_eq_true (h c hc)⟩⟩

theorem point_notMem (h : Digits ds) : '.' ∉ ds := fun hmem => ne_point (h _ hmem) rfl

theorem ofDigitChars_append_eq (as bs : List Char) :
    Nat.ofDigitChars 10 (as ++ bs) 0 =
      10 ^ bs.length * Nat.ofDigitChars 10 as 0 + Nat.ofDigitChars 10 bs 0 := by
  rw [Nat.ofDigitChars_append, Nat.ofDigitChars_eq_ofDigitChars_zero]

theorem ofDigitChars_concat (ds : List Char) (c : Char) :
    Nat.ofDigitChars 10 (ds ++ [c]) 0 = 10 * Nat.ofDigitChars 10 ds 0 + (c.toNat - 48) := by
  rw [Nat.ofDigitChars_append, Nat.ofDigitChars_cons, Nat.ofDigitChars_nil]
  rfl

theorem ofDigitChars_lt (h : Digits ds) : Nat.ofDigitChars 10 ds 0 < 10 ^ ds.length := by
  induction ds using List.reverseRecOn with
  | nil => decide
  | append_singleton ds c ih =>
    have hds := ih (append_iff.1 h).1
    have hc := toNat_sub_lt (h c (by simp))
    rw [ofDigitChars_concat, List.length_append, List.length_singleton, Nat.pow_succ]
    omega

/-- As many digits with the same value are the same digits. -/
theorem eq_of_length_eq (has : Digits as) (hbs : Digits bs) (hlen : as.length = bs.length)
    (h : Nat.ofDigitChars 10 as 0 = Nat.ofDigitChars 10 bs 0) : as = bs := by
  induction as using List.reverseRecOn generalizing bs with
  | nil => exact (List.eq_nil_of_length_eq_zero hlen.symm).symm
  | append_singleton as c ih =>
    rcases List.eq_nil_or_concat' bs with rfl | ⟨bs, d, rfl⟩
    · simp at hlen
    have hc := has c (by simp)
    have hd := hbs d (by simp)
    have hc' := toNat_sub_lt hc
    have hd' := toNat_sub_lt hd
    rw [ofDigitChars_concat, ofDigitChars_concat] at h
    have hrest := ih (append_iff.1 has).1 (append_iff.1 hbs).1 (by simpa using hlen) (by omega)
    rw [hrest, eq_of_toNat_sub_eq hc hd (by omega)]

end Digits

/-! ## Whole numbers -/

/-- The digits of a whole number, without a zero in front unless it is the only digit. -/
structure IsWhole (ds : List Char) : Prop where
  digits : Digits ds
  ne_nil : ds ≠ []
  no_leading_zero : ∀ rest, ds = '0' :: rest → rest = []

theorem isWhole_toDigits (n : Nat) : IsWhole (Nat.toDigits 10 n) where
  digits _ hc := Nat.isDigit_of_mem_toDigits (by decide) (by decide) hc
  ne_nil := Nat.toDigits_ne_nil
  no_leading_zero rest hrest := by
    -- the rest alone has the value of all of them, but nothing shorter does
    by_contra hne
    have hdigits : Digits rest := fun c hc =>
      Nat.isDigit_of_mem_toDigits (b := 10) (n := n) (by decide) (by decide)
        (by rw [hrest]; exact List.mem_cons_of_mem _ hc)
    have hval : Nat.ofDigitChars 10 rest 0 = n := by
      have h := Nat.ofDigitChars_toDigits (b := 10) (n := n) (by decide) (by decide)
      rwa [hrest, Nat.ofDigitChars_cons] at h
    have hlt := hdigits.ofDigitChars_lt
    rw [hval, ← Nat.length_toDigits_le_iff (by decide) (List.length_pos_iff.2 hne), hrest,
      List.length_cons] at hlt
    omega

/-- The digits up to any place are a whole number too. -/
theorem IsWhole.take {ds : List Char} (h : IsWhole ds) {n : Nat} (hn : 0 < n) :
    IsWhole (ds.take n) where
  digits c hc := h.digits c (List.mem_of_mem_take hc)
  ne_nil := by
    rw [Ne, List.take_eq_nil_iff, not_or]
    exact ⟨hn.ne', h.ne_nil⟩
  no_leading_zero rest hrest := by
    obtain ⟨m, rfl⟩ := Nat.exists_eq_add_one.2 hn
    obtain ⟨c, ds, rfl⟩ := List.exists_cons_of_ne_nil h.ne_nil
    rw [List.take_succ_cons, List.cons.injEq] at hrest
    obtain ⟨rfl, rfl⟩ := hrest
    rw [h.no_leading_zero ds rfl, List.take_nil]

/-- **A whole number has one numeral** without superfluous zeros. -/
theorem IsWhole.eq_toDigits {ds : List Char} (h : IsWhole ds) :
    ds = Nat.toDigits 10 (Nat.ofDigitChars 10 ds 0) := by
  induction ds using List.reverseRecOn with
  | nil => exact absurd rfl h.ne_nil
  | append_singleton ds c ih =>
    have hc := h.digits c (by simp)
    have hc' := Digits.toNat_sub_lt hc
    have hdigit : Nat.toDigits 10 (c.toNat - 48) = [c] := by
      rw [Nat.toDigits_of_lt_base hc']
      have hval := Nat.toNat_digitChar_sub_48_of_lt_ten hc'
      rw [Digits.eq_of_toNat_sub_eq (by simpa using hc') hc hval]
    rw [Digits.ofDigitChars_concat]
    by_cases hnil : ds = []
    · rw [hnil, Nat.ofDigitChars_nil, Nat.mul_zero, Nat.zero_add, hdigit, List.nil_append]
    -- a zero in front of the others would be in front of all
    have hds : IsWhole ds := by
      refine ⟨(Digits.append_iff.1 h.digits).1, hnil, fun rest hrest => ?_⟩
      have hconcat := h.no_leading_zero (rest ++ [c]) (by rw [hrest, List.cons_append])
      exact absurd hconcat (by simp)
    have hpos : 0 < Nat.ofDigitChars 10 ds 0 := by
      by_contra hzero
      have hds' := ih hds
      rw [Nat.eq_zero_of_not_pos hzero, Nat.toDigits_zero] at hds'
      have hconcat := h.no_leading_zero [c] (by rw [hds', List.singleton_append])
      exact absurd hconcat (by simp)
    rw [← Nat.toDigits_append_toDigits (by decide) hpos hc', hdigit, ← ih hds]

/-! ## Fractions -/

/-- The digits after the point, without zeros at the end. -/
structure IsFraction (ds : List Char) : Prop where
  digits : Digits ds
  no_trailing_zero : ds.getLast? ≠ some '0'

namespace IsFraction

variable {as bs ds : List Char}

theorem not_ten_dvd (h : IsFraction ds) (hne : ds ≠ []) :
    ¬10 ∣ Nat.ofDigitChars 10 ds 0 := by
  obtain ⟨ds, c, rfl⟩ := (List.eq_nil_or_concat' ds).resolve_left hne
  intro hdvd
  have hc := h.digits c (by simp)
  have hlt := Digits.toNat_sub_lt hc
  rw [Digits.ofDigitChars_concat] at hdvd
  have hzero : c = '0' := Digits.eq_of_toNat_sub_eq hc rfl (by simp only [Char.reduceToNat]; omega)
  exact h.no_trailing_zero (by rw [hzero, List.getLast?_concat])

/-- A multiple of the digits by a power of ten has as many more digits as the power. -/
theorem length_le_of_mul_pow (h : IsFraction bs) {m n : Nat}
    (hval : Nat.ofDigitChars 10 bs 0 * 10 ^ n = m * 10 ^ bs.length) : bs.length ≤ n := by
  by_contra hlt
  have hbs : bs ≠ [] := by
    rintro rfl
    exact hlt (Nat.zero_le n)
  obtain ⟨k, hk⟩ : ∃ k, bs.length = n + (k + 1) := ⟨bs.length - n - 1, by omega⟩
  rw [hk, Nat.pow_add, Nat.mul_comm (10 ^ n), ← Nat.mul_assoc] at hval
  refine h.not_ten_dvd hbs ⟨m * 10 ^ k, ?_⟩
  rw [Nat.eq_of_mul_eq_mul_right (by positivity) hval, Nat.pow_succ]
  ring

/-- **A fraction has one numeral** without zeros at the end. -/
theorem eq_of_quotient_eq (has : IsFraction as) (hbs : IsFraction bs)
    (h : (Nat.ofDigitChars 10 as 0 : ℚ) / 10 ^ as.length =
      Nat.ofDigitChars 10 bs 0 / 10 ^ bs.length) : as = bs := by
  rw [div_eq_div_iff (by positivity) (by positivity)] at h
  have hval : Nat.ofDigitChars 10 as 0 * 10 ^ bs.length =
      Nat.ofDigitChars 10 bs 0 * 10 ^ as.length := by exact_mod_cast h
  have hlen : as.length = bs.length :=
    Nat.le_antisymm (has.length_le_of_mul_pow hval) (hbs.length_le_of_mul_pow hval.symm)
  rw [hlen] at hval
  exact has.digits.eq_of_length_eq hbs.digits hlen
    (Nat.eq_of_mul_eq_mul_right (by positivity) hval)

end IsFraction

section

variable {ds : List Char}

theorem isFraction_dropTrailing (h : Digits ds) : IsFraction (Text.dropTrailing (· = '0') ds) where
  digits c hc := by
    obtain ⟨zeros, -, hds⟩ := Text.exists_dropTrailing_append (· = '0') ds
    exact h c (hds ▸ List.mem_append_left zeros hc)
  no_trailing_zero hlast := by
    have hnot := Text.eq_false_of_getLast?_dropTrailing hlast
    exact absurd rfl (of_decide_eq_false hnot)

theorem quotient_dropTrailing (ds : List Char) :
    (Nat.ofDigitChars 10 (Text.dropTrailing (· = '0') ds) 0 : ℚ) /
        10 ^ (Text.dropTrailing (· = '0') ds).length =
      Nat.ofDigitChars 10 ds 0 / 10 ^ ds.length := by
  obtain ⟨zeros, hzeros, hds⟩ := Text.exists_dropTrailing_append (· = '0') ds
  obtain ⟨j, rfl⟩ := Digits.exists_eq_replicate_zero hzeros
  conv_rhs => rw [← hds]
  rw [Nat.ofDigitChars_append, Nat.ofDigitChars_replicate_zero, List.length_append,
    List.length_replicate, pow_add, Nat.cast_mul, Nat.cast_pow, Nat.cast_ofNat]
  field_simp

end
end SimpleLedger
