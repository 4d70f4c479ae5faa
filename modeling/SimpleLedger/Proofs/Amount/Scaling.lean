import SimpleLedger.Proofs.Amount.Decimal

/-!
# Scaling an amount to units

`Descriptor.toRaw` works on lists of digits.  Here is what it does to the number that they stand
for.

* `Numeral.exists_parse_of_denotes`: the digits that are read make up the number that the text
  denotes, and the digits of its fraction end in no zero.
* `Numeral.floor?_eq`: whether the whole part is within range does not depend on how many of its
  digits are read.
* `Descriptor.toRaw_eq_ok_iff`: an amount has a quantity just if it is a multiple of the unit, or
  there are no decimals, and the quantity is within range.
* `Descriptor.Scales` says which quantity or error an amount results in, in terms of numbers, and
  `Descriptor.scaling_exact` that this is what `Descriptor.toRaw` returns.
-/

set_option autoImplicit false

namespace SimpleLedger

/-! ## Numbers and their digits -/

section

variable {v : ℚ} {w k : ℕ} {fs : List Char}

/-- What follows the point is nothing just if no significant digit does. -/
theorem eq_natCast_iff (hfs : IsFraction fs)
    (hv : v = w + Nat.ofDigitChars 10 fs 0 / 10 ^ fs.length) : v = w ↔ fs = [] := by
  constructor
  · intro h
    have hzero : (Nat.ofDigitChars 10 fs 0 : ℚ) / 10 ^ fs.length = 0 := by linarith
    by_contra hne
    refine hfs.not_ten_dvd hne ?_
    rw [div_eq_zero_iff, or_iff_left (by positivity), Nat.cast_eq_zero] at hzero
    rw [hzero]
    exact Nat.dvd_zero 10
  · rintro rfl
    rw [hv, Nat.ofDigitChars_nil, Nat.cast_zero, zero_div, add_zero]

/-- With at least as many places as there are significant digits, the number is a whole number of
units. -/
theorem mul_pow_eq (hv : v = w + Nat.ofDigitChars 10 fs 0 / 10 ^ fs.length) (h : fs.length ≤ k) :
    v * 10 ^ k =
      ((w * 10 ^ k + Nat.ofDigitChars 10 fs 0 * 10 ^ (k - fs.length) : ℕ) : ℚ) := by
  have hk : (10 : ℚ) ^ k = 10 ^ (k - fs.length) * 10 ^ fs.length := by
    rw [← pow_add, Nat.sub_add_cancel h]
  rw [hv, add_mul, Nat.cast_add, Nat.cast_mul, Nat.cast_mul, Nat.cast_pow, Nat.cast_pow,
    Nat.cast_ofNat, hk]
  field_simp

theorem length_le_iff (hfs : IsFraction fs)
    (hv : v = w + Nat.ofDigitChars 10 fs 0 / 10 ^ fs.length) :
    fs.length ≤ k ↔ ∃ m : ℕ, v * 10 ^ k = m := by
  refine ⟨fun h => ⟨_, mul_pow_eq hv h⟩, ?_⟩
  rintro ⟨m, hm⟩
  have hunits : (Nat.ofDigitChars 10 fs 0 : ℚ) * 10 ^ k = (m - w * 10 ^ k) * 10 ^ fs.length := by
    rw [← hm, hv]
    field_simp
    ring
  have hle : w * 10 ^ k ≤ m := by
    have hw : (w : ℚ) * 10 ^ k ≤ m := by
      rw [← hm, hv]
      have hnonneg := quotient_nonneg fs
      gcongr
      linarith
    exact_mod_cast hw
  refine hfs.length_le_of_mul_pow (m := m - w * 10 ^ k) ?_
  have hcast : ((Nat.ofDigitChars 10 fs 0 * 10 ^ k : ℕ) : ℚ) =
      ((m - w * 10 ^ k) * 10 ^ fs.length : ℕ) := by
    rw [Nat.cast_mul, Nat.cast_mul, Nat.cast_sub hle]
    push_cast
    exact hunits
  exact_mod_cast hcast

end

/-! ## Reading a numeral -/

section

variable {cs ws : List Char}

theorem takeWhile_of_point_notMem (h : '.' ∉ ws) : ws.takeWhile (· ≠ '.') = ws :=
  List.takeWhile_eq_self_iff.2 (all_ne_point h)

theorem takeWhile_append_point (h : '.' ∉ ws) (fs : List Char) :
    (ws ++ '.' :: fs).takeWhile (· ≠ '.') = ws := by
  rw [List.takeWhile_append_of_pos (all_ne_point h)]
  exact List.append_nil ws

/-- A text is decimal if its parts on both sides of the point are digits, and not both empty. -/
theorem isDecimal_iff_parts (cs : List Char) :
    IsDecimal cs ↔
      ¬(cs.takeWhile (· ≠ '.') = [] ∧ (cs.dropWhile (· ≠ '.')).drop 1 = []) ∧
        Digits (cs.takeWhile (· ≠ '.')) ∧ Digits ((cs.dropWhile (· ≠ '.')).drop 1) := by
  by_cases hpoint : '.' ∈ cs
  · obtain ⟨ws, fs, rfl, hws⟩ := List.eq_append_cons_of_mem hpoint
    rw [isDecimal_append_point_iff hws, dropWhile_append_point hws, takeWhile_append_point hws,
      List.drop_one, List.tail_cons]
    tauto
  · rw [isDecimal_iff_of_point_notMem hpoint, dropWhile_of_point_notMem hpoint,
      takeWhile_of_point_notMem hpoint, List.drop_nil, and_iff_left rfl, and_comm]
    exact and_congr_right fun _ => (and_iff_left nofun).symm

theorem denoted_eq_parts (h : IsDecimal cs) :
    denoted cs = Nat.ofDigitChars 10 (cs.takeWhile (· ≠ '.')) 0 +
      Nat.ofDigitChars 10 ((cs.dropWhile (· ≠ '.')).drop 1) 0 /
        10 ^ ((cs.dropWhile (· ≠ '.')).drop 1).length := by
  by_cases hpoint : '.' ∈ cs
  · obtain ⟨ws, fs, rfl, hws⟩ := List.eq_append_cons_of_mem hpoint
    obtain ⟨hws', hfs, -⟩ := (isDecimal_append_point_iff hws).1 h
    rw [denoted_append_point hws' hfs, dropWhile_append_point hws, takeWhile_append_point hws,
      List.drop_one, List.tail_cons]
  · obtain ⟨hdigits, -⟩ := (isDecimal_iff_of_point_notMem hpoint).1 h
    rw [denoted_of_digits hdigits, dropWhile_of_point_notMem hpoint,
      takeWhile_of_point_notMem hpoint, List.drop_nil, Nat.ofDigitChars_nil, Nat.cast_zero,
      zero_div, add_zero]

end

namespace Numeral

variable {amount : String} {v : ℚ}

theorem parse?_eq (amount : String) :
    (IsDecimal (Text.trim amount.toList) → parse? amount =
      some ⟨(Text.trim amount.toList).takeWhile (· ≠ '.'),
        ((Text.trim amount.toList).dropWhile (· ≠ '.')).drop 1⟩) ∧
    (¬IsDecimal (Text.trim amount.toList) → parse? amount = none) := by
  rw [isDecimal_iff_parts, parse?]
  generalize (Text.trim amount.toList).takeWhile (· ≠ '.') = whole
  generalize ((Text.trim amount.toList).dropWhile (· ≠ '.')).drop 1 = fraction
  have hempty : (whole.isEmpty && fraction.isEmpty) = true ↔ whole = [] ∧ fraction = [] := by
    rw [Bool.and_eq_true, List.isEmpty_iff, List.isEmpty_iff]
  have hdigits : (whole.all Char.isDigit && fraction.all Char.isDigit) = true ↔
      Digits whole ∧ Digits fraction := by
    rw [Bool.and_eq_true, List.all_eq_true, List.all_eq_true]
    rfl
  constructor
  · rintro ⟨hne, hds⟩
    rw [if_neg (hempty.not.2 hne), if_pos (hdigits.2 hds)]
  · intro h
    by_cases hnil : whole = [] ∧ fraction = []
    · rw [if_pos (hempty.2 hnil)]
    · rw [if_neg (hempty.not.2 hnil), if_neg (hdigits.not.2 fun hds => h ⟨hnil, hds⟩)]

theorem parse?_eq_none (h : ¬IsDecimal (Text.trim amount.toList)) : parse? amount = none :=
  (parse?_eq amount).2 h

/-- The whole part as a number, however large. -/
def floor (n : Numeral) : Nat := Nat.ofDigitChars 10 n.whole 0

/-- More than 20 digits without a zero in front are out of range, so that it makes no difference
that they are not read. -/
theorem floor?_eq {n : Numeral} (h : Digits n.whole) :
    n.floor? = if maxQuantity < n.floor then none else some n.floor := by
  have hfloor : n.floor = Nat.ofDigitChars 10 (n.whole.dropWhile (· = '0')) 0 := by
    obtain ⟨i, hi⟩ := Digits.exists_eq_replicate_zero fun c =>
      List.mem_takeWhile_imp (p := (· = '0')) (l := n.whole)
    conv_lhs => rw [floor, ← List.takeWhile_append_dropWhile (p := (· = '0')) (l := n.whole)]
    rw [hi, Nat.ofDigitChars_append, Nat.ofDigitChars_replicate_zero, Nat.mul_zero]
  rw [floor?, ← hfloor]
  split
  next hlong =>
    have hwhole : IsWhole (n.whole.dropWhile (· = '0')) := by
      refine ⟨fun c hc => h c (List.dropWhile_sublist _ |>.mem hc), ?_, fun rest hrest => ?_⟩
      · exact List.ne_nil_of_length_pos (by omega)
      · have hnot := List.head?_dropWhile_not (· = '0') n.whole
        rw [hrest] at hnot
        exact absurd rfl (of_decide_eq_false hnot)
    rw [hwhole.eq_toDigits, ← hfloor] at hlong
    have hmany := (Nat.length_toDigits_le_iff (b := 10) (n := n.floor) (by decide)
      (by decide : 0 < 20)).not.1 (Nat.not_le.2 hlong)
    have hmax : maxQuantity < 10 ^ 20 := by decide
    rw [if_pos (by omega)]
  next => rfl

theorem le_of_floor?_eq_some {n : Numeral} {whole : ℕ} (h : n.floor? = some whole) :
    whole ≤ maxQuantity := by
  simp only [floor?, Option.ite_none_left_eq_some, Option.some.injEq] at h
  obtain ⟨-, hle, rfl⟩ := h
  exact Nat.le_of_not_lt hle

/-- **The digits that are read make up the number.** -/
theorem exists_parse_of_denotes (h : Denotes amount v) :
    ∃ n, parse? amount = some n ∧ Digits n.whole ∧ IsFraction n.significant ∧
      v = n.floor + Nat.ofDigitChars 10 n.significant 0 / 10 ^ n.significant.length := by
  obtain ⟨hdecimal, rfl⟩ := h
  obtain ⟨-, hwhole, hdigits⟩ := (isDecimal_iff_parts _).1 hdecimal
  refine ⟨_, (parse?_eq amount).1 hdecimal, hwhole, isFraction_dropTrailing hdigits, ?_⟩
  rw [denoted_eq_parts hdecimal, significant, quotient_dropTrailing]
  rfl

end Numeral

/-! ## Scaling a number -/

/-- The whole part is beyond all quantities, or is the greatest one and more follows. -/
def Exceeds (v : ℚ) : Prop := maxQuantity < ⌊v⌋₊ ∨ (⌊v⌋₊ = maxQuantity ∧ v ≠ ⌊v⌋₊)

theorem exceeds_iff {v : ℚ} (h : 0 ≤ v) : Exceeds v ↔ (maxQuantity : ℚ) < v := by
  have hle := Nat.floor_le h
  have hlt := Nat.lt_floor_add_one v
  constructor
  · rintro (hbeyond | ⟨hmax, hmore⟩)
    · have hcast : (maxQuantity : ℚ) < ⌊v⌋₊ := by exact_mod_cast hbeyond
      exact hcast.trans_le hle
    · rw [← hmax]
      exact lt_of_le_of_ne hle hmore.symm
  · intro hv
    have hfloor : maxQuantity ≤ ⌊v⌋₊ := Nat.le_floor hv.le
    rcases hfloor.lt_or_eq with hlt | heq
    · exact .inl hlt
    · exact .inr ⟨heq.symm, fun hwhole => hv.ne (by rw [hwhole, ← heq])⟩

theorem Denotes.nonneg {amount : String} {v : ℚ} (h : Denotes amount v) : 0 ≤ v := by
  obtain ⟨-, rfl⟩ := h
  rw [denoted]
  positivity

namespace Descriptor

variable {token : Descriptor} {amount : String} {v : ℚ} {q : UInt64}

theorem one_le_decimals_iff {d : UInt8} : 1 ≤ d ↔ d.toNat ≠ 0 := by
  rw [UInt8.le_iff_toNat_le, UInt8.toNat_one]
  exact Nat.one_le_iff_ne_zero

theorem one_le_of_ne_zero {d : UInt8} (h : d ≠ 0) : 1 ≤ d :=
  one_le_decimals_iff.2 fun hzero => h (UInt8.toNat_inj.1 hzero)

theorem toRaw_of_lt_decimals (hd : 9 < token.decimals) :
    token.toRaw amount = .error (.unsupportedDecimals token.decimals) :=
  if_pos hd

theorem toRaw_of_not_isDecimal (hd : token.decimals ≤ 9)
    (h : ¬IsDecimal (Text.trim amount.toList)) :
    token.toRaw amount = .error (.malformed amount) := by
  have hmax : ¬maxDecimals < token.decimals := UInt8.not_lt.2 hd
  rw [toRaw, if_neg hmax, Numeral.parse?_eq_none h]

/-- The tests and the sum that are made of a numeral with supported decimals. -/
theorem toRaw_of_parse {n : Numeral} (hd : token.decimals ≤ 9)
    (hn : Numeral.parse? amount = some n) (hws : Digits n.whole) :
    token.toRaw amount =
      if maxQuantity < n.floor ∨ (n.floor = maxQuantity ∧ n.significant ≠ []) then
        .error (.range amount)
      else if token.decimals.toNat = 0 then .ok (UInt64.ofNat n.floor)
      else if token.decimals.toNat < n.significant.length then
        .error (.precision token.ticker token.decimals amount)
      else if maxQuantity < n.floor * 10 ^ token.decimals.toNat +
          Nat.ofDigitChars 10 n.significant 0 *
            10 ^ (token.decimals.toNat - n.significant.length) then
        .error (.range amount)
      else
        .ok (UInt64.ofNat (n.floor * 10 ^ token.decimals.toNat +
          Nat.ofDigitChars 10 n.significant 0 *
            10 ^ (token.decimals.toNat - n.significant.length))) := by
  have hmax : ¬maxDecimals < token.decimals := UInt8.not_lt.2 hd
  simp only [toRaw, if_neg hmax, hn, Numeral.floor?_eq hws]
  by_cases hlarge : maxQuantity < n.floor
  · rw [if_pos hlarge, if_pos (.inl hlarge)]
  · simp only [hlarge, false_or]
    rfl

theorem exceeds_iff_parts {n : Numeral} (hfs : IsFraction n.significant)
    (hv : v = n.floor + Nat.ofDigitChars 10 n.significant 0 / 10 ^ n.significant.length) :
    Exceeds v ↔ maxQuantity < n.floor ∨ (n.floor = maxQuantity ∧ n.significant ≠ []) := by
  have hfloor : ⌊v⌋₊ = n.floor := by rw [hv, floor_natCast_add_quotient _ hfs.digits]
  rw [Exceeds, hfloor, Ne, eq_natCast_iff hfs hv]

theorem toRaw_of_exceeds (hd : token.decimals ≤ 9) (hv : Denotes amount v) (h : Exceeds v) :
    token.toRaw amount = .error (.range amount) := by
  obtain ⟨n, hn, hws, hfs, hparts⟩ := Numeral.exists_parse_of_denotes hv
  rw [toRaw_of_parse hd hn hws, if_pos ((exceeds_iff_parts hfs hparts).1 h)]

theorem toRaw_of_decimals_eq_zero (hd : token.decimals = 0) (hv : Denotes amount v)
    (h : ¬Exceeds v) : token.toRaw amount = .ok (UInt64.ofNat ⌊v⌋₊) := by
  obtain ⟨n, hn, hws, hfs, hparts⟩ := Numeral.exists_parse_of_denotes hv
  have hfloor : ⌊v⌋₊ = n.floor := by rw [hparts, floor_natCast_add_quotient _ hfs.digits]
  rw [toRaw_of_parse (by rw [hd]; decide) hn hws, if_neg ((exceeds_iff_parts hfs hparts).not.1 h),
    if_pos (by rw [hd]; rfl), hfloor]

/-- Digits beyond the decimals are a fraction of a unit. -/
theorem toRaw_of_no_multiple (hd : token.decimals ≤ 9) (hpos : 1 ≤ token.decimals)
    (hv : Denotes amount v) (h : ¬Exceeds v)
    (hnone : ¬∃ m : ℕ, v * 10 ^ token.decimals.toNat = m) :
    token.toRaw amount = .error (.precision token.ticker token.decimals amount) := by
  obtain ⟨n, hn, hws, hfs, hparts⟩ := Numeral.exists_parse_of_denotes hv
  have hzero := one_le_decimals_iff.1 hpos
  have hlt : token.decimals.toNat < n.significant.length :=
    Nat.lt_of_not_le fun hle => hnone ((length_le_iff hfs hparts).1 hle)
  rw [toRaw_of_parse hd hn hws, if_neg ((exceeds_iff_parts hfs hparts).not.1 h), if_neg hzero,
    if_pos hlt]

theorem toRaw_of_multiple (hd : token.decimals ≤ 9) (hpos : 1 ≤ token.decimals)
    (hv : Denotes amount v) (h : ¬Exceeds v) {m : ℕ}
    (hm : v * 10 ^ token.decimals.toNat = m) :
    token.toRaw amount =
      if maxQuantity < m then .error (.range amount) else .ok (UInt64.ofNat m) := by
  obtain ⟨n, hn, hws, hfs, hparts⟩ := Numeral.exists_parse_of_denotes hv
  have hzero := one_le_decimals_iff.1 hpos
  have hle := (length_le_iff hfs hparts).2 ⟨m, hm⟩
  have hunits : m = n.floor * 10 ^ token.decimals.toNat + Nat.ofDigitChars 10 n.significant 0 *
      10 ^ (token.decimals.toNat - n.significant.length) := by
    rw [mul_pow_eq hparts hle] at hm
    exact_mod_cast hm.symm
  rw [toRaw_of_parse hd hn hws, if_neg ((exceeds_iff_parts hfs hparts).not.1 h), if_neg hzero,
    if_neg (Nat.not_lt.2 hle), hunits]

/-! ## Every outcome -/

/-- What an amount results in, by the number that it denotes.  With decimals the number is counted
in units, and a fraction of a unit is an error; without them the fraction is cut off. -/
inductive Scales (token : Descriptor) (amount : String) : Except AmountError UInt64 → Prop
  | unsupported (hd : 9 < token.decimals) :
      Scales token amount (.error (.unsupportedDecimals token.decimals))
  | malformed (hd : token.decimals ≤ 9) (h : ¬IsDecimal (Text.trim amount.toList)) :
      Scales token amount (.error (.malformed amount))
  /-- The number is out of range before it is scaled. -/
  | exceeds {v : ℚ} (hd : token.decimals ≤ 9) (hpos : 1 ≤ token.decimals) (hv : Denotes amount v)
      (h : Exceeds v) : Scales token amount (.error (.range amount))
  | precision {v : ℚ} (hd : token.decimals ≤ 9) (hpos : 1 ≤ token.decimals)
      (hv : Denotes amount v) (h : ¬Exceeds v)
      (hnone : ¬∃ m : ℕ, v * 10 ^ token.decimals.toNat = m) :
      Scales token amount (.error (.precision token.ticker token.decimals amount))
  /-- The number of units is out of range. -/
  | range {v : ℚ} {m : ℕ} (hd : token.decimals ≤ 9) (hpos : 1 ≤ token.decimals)
      (hv : Denotes amount v) (h : ¬Exceeds v) (hm : v * 10 ^ token.decimals.toNat = m)
      (hlt : maxQuantity < m) : Scales token amount (.error (.range amount))
  | exact {v : ℚ} {q : UInt64} (hd : token.decimals ≤ 9) (hpos : 1 ≤ token.decimals)
      (hv : Denotes amount v) (h : ¬Exceeds v) (hq : v * 10 ^ token.decimals.toNat = q.toNat) :
      Scales token amount (.ok q)
  | wholeRange {v : ℚ} (hd : token.decimals = 0) (hv : Denotes amount v)
      (hlt : (maxQuantity : ℚ) < v) : Scales token amount (.error (.range amount))
  | whole {v : ℚ} {q : UInt64} (hd : token.decimals = 0) (hv : Denotes amount v)
      (hle : v ≤ maxQuantity) (hq : q.toNat = ⌊v⌋₊) : Scales token amount (.ok q)

theorem Scales.toRaw_eq {r : Except AmountError UInt64} (h : token.Scales amount r) :
    token.toRaw amount = r := by
  cases h with
  | unsupported hd => exact toRaw_of_lt_decimals hd
  | malformed hd h => exact toRaw_of_not_isDecimal hd h
  | exceeds hd _ hv h => exact toRaw_of_exceeds hd hv h
  | precision hd hpos hv h hnone => exact toRaw_of_no_multiple hd hpos hv h hnone
  | range hd hpos hv h hm hlt => rw [toRaw_of_multiple hd hpos hv h hm, if_pos hlt]
  | exact hd hpos hv h hq =>
    rw [toRaw_of_multiple hd hpos hv h hq, if_neg (Nat.not_lt.2 (toNat_le_maxQuantity _)),
      UInt64.ofNat_toNat]
  | wholeRange hd hv hlt =>
    exact toRaw_of_exceeds (by rw [hd]; decide) hv ((exceeds_iff hv.nonneg).2 hlt)
  | whole hd hv hle hq =>
    have hnot := (exceeds_iff hv.nonneg).not.2 (not_lt.2 hle)
    rw [toRaw_of_decimals_eq_zero hd hv hnot, ← hq, UInt64.ofNat_toNat]

theorem exists_scales (token : Descriptor) (amount : String) : ∃ r, token.Scales amount r := by
  rcases UInt8.lt_or_le 9 token.decimals with hd | hd
  · exact ⟨_, .unsupported hd⟩
  by_cases hdecimal : IsDecimal (Text.trim amount.toList)
  swap
  · exact ⟨_, .malformed hd hdecimal⟩
  obtain ⟨v, hv⟩ : ∃ v, Denotes amount v := ⟨_, hdecimal, rfl⟩
  by_cases hzero : token.decimals = 0
  · rcases lt_or_ge (maxQuantity : ℚ) v with hlt | hle
    · exact ⟨_, .wholeRange hzero hv hlt⟩
    · have hfloor : ⌊v⌋₊ ≤ maxQuantity := Nat.floor_le_of_le hle
      exact ⟨_, .whole hzero hv hle (toNat_ofNat_of_le hfloor)⟩
  have hpos := one_le_of_ne_zero hzero
  by_cases h : Exceeds v
  · exact ⟨_, .exceeds hd hpos hv h⟩
  by_cases hmultiple : ∃ m : ℕ, v * 10 ^ token.decimals.toNat = m
  · obtain ⟨m, hm⟩ := hmultiple
    rcases Nat.lt_or_ge maxQuantity m with hlt | hle
    · exact ⟨_, .range hd hpos hv h hm hlt⟩
    · exact ⟨_, .exact hd hpos hv h (by rw [hm, toNat_ofNat_of_le hle])⟩
  · exact ⟨_, .precision hd hpos hv h hmultiple⟩

theorem toRaw_eq_iff_scales {r : Except AmountError UInt64} :
    token.toRaw amount = r ↔ token.Scales amount r := by
  refine ⟨?_, Scales.toRaw_eq⟩
  rintro rfl
  obtain ⟨r, hr⟩ := exists_scales token amount
  rwa [hr.toRaw_eq]

/-- **Which amounts have a quantity**, and which one. -/
theorem toRaw_eq_ok_iff :
    token.toRaw amount = .ok q ↔
      token.decimals ≤ 9 ∧ ∃ v, Denotes amount v ∧ v ≤ maxQuantity ∧
        (1 ≤ token.decimals → v * 10 ^ token.decimals.toNat = q.toNat) ∧
        (token.decimals = 0 → q.toNat = ⌊v⌋₊) := by
  rw [toRaw_eq_iff_scales]
  constructor
  · intro h
    cases h with
    | exact hd hpos hv h hq =>
      rw [exceeds_iff hv.nonneg, not_lt] at h
      refine ⟨hd, _, hv, h, fun _ => hq, fun hzero => ?_⟩
      rw [hzero] at hpos
      exact absurd hpos (by decide)
    | whole hd hv hle hq =>
      refine ⟨by rw [hd]; decide, _, hv, hle, fun hpos => ?_, fun _ => hq⟩
      rw [hd] at hpos
      exact absurd hpos (by decide)
  · rintro ⟨hd, v, hv, hle, hscaled, hwhole⟩
    by_cases hzero : token.decimals = 0
    · exact .whole hzero hv hle (hwhole hzero)
    · have hpos := one_le_of_ne_zero hzero
      exact .exact hd hpos hv ((exceeds_iff hv.nonneg).not.2 (not_lt.2 hle)) (hscaled hpos)

/-- The quantity depends on nothing but the number. -/
theorem toRaw_eq_ok_congr {other : String} (h : ∀ v, Denotes amount v ↔ Denotes other v) :
    token.toRaw amount = .ok q ↔ token.toRaw other = .ok q := by
  simp only [toRaw_eq_ok_iff, h]

/-- Scaling needs less than 128 bits. -/
theorem units_lt {whole : ℕ} {fs : List Char} (hfs : Digits fs) (hd : token.decimals ≤ 9)
    (hwhole : whole ≤ maxQuantity) (hle : fs.length ≤ token.decimals.toNat) :
    whole * 10 ^ token.decimals.toNat +
      Nat.ofDigitChars 10 fs 0 * 10 ^ (token.decimals.toNat - fs.length) < 2 ^ 128 := by
  have hplaces : 10 ^ token.decimals.toNat ≤ 10 ^ 9 :=
    Nat.pow_le_pow_right (by decide) (UInt8.le_iff_toNat_le.1 hd)
  have hfraction : Nat.ofDigitChars 10 fs 0 * 10 ^ (token.decimals.toNat - fs.length) <
      10 ^ token.decimals.toNat := by
    calc Nat.ofDigitChars 10 fs 0 * 10 ^ (token.decimals.toNat - fs.length)
        < 10 ^ fs.length * 10 ^ (token.decimals.toNat - fs.length) :=
          Nat.mul_lt_mul_of_pos_right hfs.ofDigitChars_lt (by positivity)
      _ = 10 ^ token.decimals.toNat := by rw [← Nat.pow_add, Nat.add_sub_cancel' hle]
  have hscaled : whole * 10 ^ token.decimals.toNat ≤ maxQuantity * 10 ^ 9 :=
    Nat.mul_le_mul hwhole hplaces
  have hmax : maxQuantity * 10 ^ 9 + 10 ^ 9 < 2 ^ 128 := by decide
  omega

theorem denotes_pad_iff {before after : List Char} {i j : ℕ} {core : List Char}
    (hbefore : ∀ c ∈ before, Text.isBlank c = true) (hafter : ∀ c ∈ after, Text.isBlank c = true)
    (hcore : core = Text.trim amount.toList)
    (hdigit : (core ≠ [] ∧ core ≠ ['.']) ∨ (i = 0 ∧ j = 0)) (hj : j = 0 ∨ '.' ∈ core) :
    Denotes (String.ofList
        (before ++ (List.replicate i '0' ++ core ++ List.replicate j '0') ++ after)) v ↔
      Denotes amount v := by
  have htrim : Text.trim (before ++ (List.replicate i '0' ++ core ++ List.replicate j '0') ++
      after) = List.replicate i '0' ++ core ++ List.replicate j '0' := by
    rw [Text.trim_append hbefore hafter, hcore, trim_pad]
  rw [Denotes, String.toList_ofList, htrim, isDecimal_pad_iff i j hdigit, Denotes, ← hcore]
  exact and_congr_right fun hd => by rw [denoted_pad i j hd hj]

/-- **An amount is scaled exactly.**  The result is the one that `Scales` gives to the number that
the amount denotes, and no other.  No step of the scaling needs more than 128 bits.  White space
around the amount, zeros in front of its number, and zeros at the end of its fraction change neither
whether it has a quantity nor which one, as long as they are not its only digits: no digit at all is
malformed. -/
theorem scaling_exact (token : Descriptor) (amount : String) :
    (∀ r, token.toRaw amount = r ↔ token.Scales amount r) ∧
    (∀ n whole, token.decimals ≤ 9 → Numeral.parse? amount = some n → n.floor? = some whole →
      n.significant.length ≤ token.decimals.toNat →
      whole * 10 ^ token.decimals.toNat + Nat.ofDigitChars 10 n.significant 0 *
        10 ^ (token.decimals.toNat - n.significant.length) < 2 ^ 128) ∧
    ∀ (before after : List Char) (i j : ℕ) (core : List Char),
      (∀ c ∈ before, Text.isBlank c = true) → (∀ c ∈ after, Text.isBlank c = true) →
      core = Text.trim amount.toList →
      (core ≠ [] ∧ core ≠ ['.']) ∨ (i = 0 ∧ j = 0) → j = 0 ∨ '.' ∈ core →
      ∀ q, token.toRaw (String.ofList
          (before ++ (List.replicate i '0' ++ core ++ List.replicate j '0') ++ after)) = .ok q ↔
        token.toRaw amount = .ok q := by
  refine ⟨fun r => toRaw_eq_iff_scales, fun n whole hd hn hwhole hle => ?_, ?_⟩
  · by_cases hdecimal : IsDecimal (Text.trim amount.toList)
    · obtain ⟨n', hn', -, hfs, -⟩ := Numeral.exists_parse_of_denotes ⟨hdecimal, rfl⟩
      rw [hn', Option.some.injEq] at hn
      subst hn
      exact units_lt hfs.digits hd (Numeral.le_of_floor?_eq_some hwhole) hle
    · rw [Numeral.parse?_eq_none hdecimal] at hn
      cases hn
  · intro before after i j core hbefore hafter hcore hdigit hj q
    exact toRaw_eq_ok_congr fun v => denotes_pad_iff hbefore hafter hcore hdigit hj

/-- A token with eight decimals. -/
def sample : Descriptor := ⟨⟨⟨List.replicate 32 1, rfl⟩⟩, "TOK", "Token", 8, .fungible⟩

/-- An amount without and with what is superfluous. -/
theorem scaling_exact_sample :
    sample.Scales "12.5" (.ok 1250000000) ∧ sample.toRaw " 0012.50\t" = .ok 1250000000 := by
  obtain ⟨hscales, -, hpad⟩ := scaling_exact sample "12.5"
  have hplain : sample.toRaw "12.5" = .ok 1250000000 := by decide +kernel
  have hcore : Text.trim "12.5".toList = ['1', '2', '.', '5'] := by cbv
  have hbefore : ∀ c ∈ [' '], Text.isBlank c = true := List.forall_mem_singleton.2 (by cbv)
  have hafter : ∀ c ∈ ['\t'], Text.isBlank c = true := List.forall_mem_singleton.2 (by cbv)
  have htext : String.ofList ([' '] ++
      (List.replicate 2 '0' ++ ['1', '2', '.', '5'] ++ List.replicate 1 '0') ++ ['\t']) =
      " 0012.50\t" := by cbv
  refine ⟨(hscales _).1 hplain, ?_⟩
  rw [← htext]
  exact (hpad [' '] ['\t'] 2 1 _ hbefore hafter hcore.symm (.inl (by decide)) (.inr (by decide))
    1250000000).2 hplain

end Descriptor
end SimpleLedger
