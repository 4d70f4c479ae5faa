import SimpleLedger.Proofs.Amount.Digits

/-!
# Decimal texts

What a decimal text is and which number it stands for, said of the text as a whole and without
splitting it at the point.  Amounts are written in one of many decimal texts and shown in one of
them:

* `IsDecimal`, `denoted` and `Denotes`: the texts, the number that one stands for, and texts with
  white space around them.
* `IsCanonical`: the text without anything superfluous.  `IsCanonical.eq_of_denoted_eq` says that a
  number has at most one.
* `isDecimal_pad_iff`, `denoted_pad`: zeros in front and zeros after the fraction make no
  difference.
-/

set_option autoImplicit false

namespace SimpleLedger

/-! ## Texts and numbers -/

/-- ASCII digits with at most one point among them, and at least one digit. -/
structure IsDecimal (cs : List Char) : Prop where
  chars : ∀ c ∈ cs, c.isDigit = true ∨ c = '.'
  points : cs.count '.' ≤ 1
  digit : ∃ c ∈ cs, c.isDigit = true

/-- The number that a decimal text stands for: all its digits read as one whole number, divided by
ten for every place after the point. -/
def denoted (cs : List Char) : ℚ :=
  Nat.ofDigitChars 10 (cs.filter Char.isDigit) 0 / 10 ^ (cs.dropWhile (· ≠ '.')).tail.length

/-- Apart from white space around it, the text is a decimal text for `v`. -/
def Denotes (text : String) (v : ℚ) : Prop :=
  IsDecimal (Text.trim text.toList) ∧ denoted (Text.trim text.toList) = v

/-- A decimal text in which nothing is superfluous: it begins with a digit, which is no zero unless
the point or nothing follows; a fraction does not end in a zero, and there is a digit after a
point. -/
structure IsCanonical (cs : List Char) : Prop where
  decimal : IsDecimal cs
  begins_with_digit : ∃ c, cs.head? = some c ∧ c.isDigit = true
  no_leading_zero : ∀ rest, cs = '0' :: rest → rest = [] ∨ rest.head? = some '.'
  no_trailing_zero : '.' ∈ cs → cs.getLast? ≠ some '0'
  no_trailing_point : cs.getLast? ≠ some '.'

section

variable {ws fs cs ds : List Char} {v : ℚ}

/-! ## Before and after the point -/

theorem filter_isDigit_eq (h : Digits ds) : ds.filter Char.isDigit = ds := List.filter_eq_self.2 h

theorem all_ne_point (h : '.' ∉ ws) : ∀ c ∈ ws, decide (c ≠ '.') = true := by
  intro c hc
  rw [decide_eq_true_eq]
  rintro rfl
  exact h hc

theorem dropWhile_of_point_notMem (h : '.' ∉ ws) : ws.dropWhile (· ≠ '.') = [] :=
  List.dropWhile_eq_nil_iff.2 (all_ne_point h)

theorem dropWhile_append_point (h : '.' ∉ ws) (fs : List Char) :
    (ws ++ '.' :: fs).dropWhile (· ≠ '.') = '.' :: fs := by
  rw [List.dropWhile_append_of_pos (all_ne_point h)]
  rfl

theorem getLast?_append_point (ws : List Char) (h : fs ≠ []) :
    (ws ++ '.' :: fs).getLast? = fs.getLast? := by
  rw [List.getLast?_append_of_ne_nil _ (List.cons_ne_nil _ _), List.getLast?_cons_of_ne_nil h]

theorem isDecimal_iff_of_point_notMem (h : '.' ∉ ws) : IsDecimal ws ↔ Digits ws ∧ ws ≠ [] := by
  constructor
  · intro hws
    have hdigits : Digits ws := fun c hc =>
      (hws.chars c hc).resolve_right fun hpoint => h (hpoint ▸ hc)
    obtain ⟨c, hc, -⟩ := hws.digit
    exact ⟨hdigits, List.ne_nil_of_mem hc⟩
  · rintro ⟨hdigits, hne⟩
    obtain ⟨c, hc⟩ := List.exists_mem_of_ne_nil ws hne
    refine ⟨fun c hc => .inl (hdigits c hc), ?_, c, hc, hdigits c hc⟩
    rw [List.count_eq_zero.2 h]
    exact Nat.zero_le 1

theorem isDecimal_append_point_iff (h : '.' ∉ ws) :
    IsDecimal (ws ++ '.' :: fs) ↔ Digits ws ∧ Digits fs ∧ ¬(ws = [] ∧ fs = []) := by
  have hcount : (ws ++ '.' :: fs).count '.' = fs.count '.' + 1 := by
    rw [List.count_append, List.count_eq_zero.2 h, Nat.zero_add, List.count_cons_self]
  constructor
  · intro hd
    have hpoints := hd.points
    have hfs : '.' ∉ fs := by
      rw [hcount] at hpoints
      exact List.count_eq_zero.1 (by omega)
    refine ⟨fun c hc => ?_, fun c hc => ?_, ?_⟩
    · exact (hd.chars c (by simp [hc])).resolve_right fun hpoint => h (hpoint ▸ hc)
    · exact (hd.chars c (by simp [hc])).resolve_right fun hpoint => hfs (hpoint ▸ hc)
    · rintro ⟨rfl, rfl⟩
      obtain ⟨c, hc, hdigit⟩ := hd.digit
      rw [List.nil_append, List.mem_singleton] at hc
      exact Digits.ne_point hdigit hc
  · rintro ⟨hws, hfs, hne⟩
    refine ⟨fun c hc => ?_, ?_, ?_⟩
    · rcases List.mem_append.1 hc with hc | hc
      · exact .inl (hws c hc)
      rcases List.mem_cons.1 hc with rfl | hc
      · exact .inr rfl
      · exact .inl (hfs c hc)
    · rw [hcount, List.count_eq_zero.2 hfs.point_notMem]
    · rcases ws with _ | ⟨c, ws⟩
      · obtain ⟨c, hc⟩ := List.exists_mem_of_ne_nil fs fun hnil => hne ⟨rfl, hnil⟩
        exact ⟨c, by simp [hc], hfs c hc⟩
      · exact ⟨c, by simp, hws c (by simp)⟩

theorem denoted_of_digits (h : Digits ws) : denoted ws = Nat.ofDigitChars 10 ws 0 := by
  rw [denoted, filter_isDigit_eq h, dropWhile_of_point_notMem h.point_notMem, List.tail_nil,
    List.length_nil, pow_zero, div_one]

theorem denoted_append_point (hws : Digits ws) (hfs : Digits fs) :
    denoted (ws ++ '.' :: fs) =
      Nat.ofDigitChars 10 ws 0 + Nat.ofDigitChars 10 fs 0 / 10 ^ fs.length := by
  have hfilter : (ws ++ '.' :: fs).filter Char.isDigit = ws ++ fs := by
    rw [List.filter_append, List.filter_cons_of_neg (by decide), filter_isDigit_eq hws,
      filter_isDigit_eq hfs]
  rw [denoted, hfilter, dropWhile_append_point hws.point_notMem, List.tail_cons,
    Digits.ofDigitChars_append_eq, Nat.cast_add, Nat.cast_mul, Nat.cast_pow, Nat.cast_ofNat]
  field_simp

/-- What stands after the point is less than one. -/
theorem quotient_lt_one (h : Digits fs) :
    (Nat.ofDigitChars 10 fs 0 : ℚ) / 10 ^ fs.length < 1 := by
  rw [div_lt_one (by positivity)]
  exact_mod_cast h.ofDigitChars_lt

theorem quotient_nonneg (fs : List Char) :
    (0 : ℚ) ≤ (Nat.ofDigitChars 10 fs 0 : ℚ) / 10 ^ fs.length := by
  positivity

theorem floor_natCast_add_quotient (n : ℕ) (h : Digits fs) :
    ⌊(n : ℚ) + Nat.ofDigitChars 10 fs 0 / 10 ^ fs.length⌋₊ = n := by
  have hnonneg := quotient_nonneg fs
  have hlt := quotient_lt_one h
  rw [Nat.floor_eq_iff (by positivity)]
  constructor <;> linarith

/-! ## Canonical texts -/

/-- Digits on both sides of the point, which is left out where no fraction follows. -/
def pointed (whole fraction : List Char) : List Char :=
  if fraction.isEmpty then whole else whole ++ '.' :: fraction

theorem denoted_pointed (hws : Digits ws) (hfs : Digits fs) :
    denoted (pointed ws fs) =
      Nat.ofDigitChars 10 ws 0 + Nat.ofDigitChars 10 fs 0 / 10 ^ fs.length := by
  rw [pointed]
  split
  next hempty =>
    rw [List.isEmpty_iff] at hempty
    rw [denoted_of_digits hws, hempty, Nat.ofDigitChars_nil, Nat.cast_zero, zero_div, add_zero]
  next => exact denoted_append_point hws hfs

theorem isCanonical_pointed (hws : IsWhole ws) (hfs : IsFraction fs) :
    IsCanonical (pointed ws fs) := by
  have hpoint := hws.digits.point_notMem
  obtain ⟨c, ws, rfl⟩ := List.exists_cons_of_ne_nil hws.ne_nil
  have hc := hws.digits c (by simp)
  rw [pointed]
  split
  next =>
    refine ⟨(isDecimal_iff_of_point_notMem hpoint).2 ⟨hws.digits, hws.ne_nil⟩, ⟨c, rfl, hc⟩,
      fun rest hrest => .inl (hws.no_leading_zero rest hrest), fun hmem => absurd hmem hpoint, ?_⟩
    exact fun hlast => hpoint (List.mem_of_getLast? hlast)
  next hempty =>
    have hne : fs ≠ [] := fun hnil => hempty (List.isEmpty_iff.2 hnil)
    have hlast := getLast?_append_point (c :: ws) hne
    refine ⟨(isDecimal_append_point_iff hpoint).2
      ⟨hws.digits, hfs.digits, fun h => List.cons_ne_nil c ws h.1⟩, ⟨c, rfl, hc⟩, ?_, ?_, ?_⟩
    · intro rest hrest
      rw [List.cons_append, List.cons.injEq] at hrest
      obtain ⟨rfl, rfl⟩ := hrest
      rw [hws.no_leading_zero ws rfl]
      exact .inr rfl
    · rw [hlast]
      exact fun _ => hfs.no_trailing_zero
    · rw [hlast]
      exact fun h => hfs.digits.point_notMem (List.mem_of_getLast? h)

theorem IsCanonical.exists_pointed (h : IsCanonical cs) :
    ∃ ws fs, IsWhole ws ∧ IsFraction fs ∧ cs = pointed ws fs := by
  obtain ⟨c, hhead, hc⟩ := h.begins_with_digit
  by_cases hpoint : '.' ∈ cs
  · obtain ⟨ws, fs, rfl, hws⟩ := List.eq_append_cons_of_mem hpoint
    obtain ⟨hws', hfs', -⟩ := (isDecimal_append_point_iff hws).1 h.decimal
    have hfs : fs ≠ [] := by
      rintro rfl
      exact h.no_trailing_point List.getLast?_concat
    have hne : ws ≠ [] := by
      rintro rfl
      cases hhead
      exact Digits.ne_point hc rfl
    refine ⟨ws, fs, ⟨hws', hne, fun rest hrest => ?_⟩, ⟨hfs', ?_⟩, ?_⟩
    · have hzero := h.no_leading_zero (rest ++ '.' :: fs) (by rw [hrest, List.cons_append])
      rcases hzero with hnil | hhead
      · exact absurd hnil (by simp)
      rcases rest with _ | ⟨d, rest⟩
      · rfl
      · cases hhead
        exact absurd (by simp [hrest]) hws
    · rw [← getLast?_append_point ws hfs]
      exact h.no_trailing_zero hpoint
    · rw [pointed, if_neg (by rwa [List.isEmpty_iff])]
  · obtain ⟨hdigits, hne⟩ := (isDecimal_iff_of_point_notMem hpoint).1 h.decimal
    refine ⟨cs, [], ⟨hdigits, hne, fun rest hrest => ?_⟩, ⟨nofun, nofun⟩, rfl⟩
    rcases h.no_leading_zero rest hrest with hnil | hhead
    · exact hnil
    · rcases rest with _ | ⟨d, rest⟩
      · rfl
      · cases hhead
        exact absurd (by simp [hrest]) hpoint

/-- **A number has one canonical text.** -/
theorem IsCanonical.eq_of_denoted_eq (hcs : IsCanonical cs) (hds : IsCanonical ds)
    (h : denoted cs = denoted ds) : cs = ds := by
  obtain ⟨ws, fs, hws, hfs, rfl⟩ := hcs.exists_pointed
  obtain ⟨ws', fs', hws', hfs', rfl⟩ := hds.exists_pointed
  rw [denoted_pointed hws.digits hfs.digits, denoted_pointed hws'.digits hfs'.digits] at h
  have hwhole : Nat.ofDigitChars 10 ws 0 = Nat.ofDigitChars 10 ws' 0 := by
    have hfloor := congrArg Nat.floor h
    rwa [floor_natCast_add_quotient _ hfs.digits, floor_natCast_add_quotient _ hfs'.digits]
      at hfloor
  rw [hwhole] at h
  rw [hws.eq_toDigits, hws'.eq_toDigits, hwhole, hfs.eq_of_quotient_eq hfs' (add_left_cancel h)]

/-! ## White space and superfluous zeros -/

theorem isBlank_eq_false {c : Char} (h : c.isDigit = true ∨ c = '.') : Text.isBlank c = false := by
  rcases h with h | rfl
  · have hc := Char.isDigit_iff_toNat.1 h
    simp only [Char.reduceToNat] at hc
    simp only [Text.isBlank, Bool.or_eq_false_iff, Bool.and_eq_false_iff, decide_eq_false_iff_not,
      beq_eq_false_iff_ne]
    omega
  · decide

/-- There is no white space in a decimal text. -/
theorem IsDecimal.trim_eq (h : IsDecimal cs) : Text.trim cs = cs :=
  Text.trim_eq_self (fun c hc => isBlank_eq_false (h.chars c (List.mem_of_head? hc)))
    fun c hc => isBlank_eq_false (h.chars c (List.mem_of_getLast? hc))

/-- Zeros in front of a trimmed text and after it are not trimmed. -/
theorem trim_pad (i j : ℕ) (cs : List Char) :
    Text.trim (List.replicate i '0' ++ Text.trim cs ++ List.replicate j '0') =
      List.replicate i '0' ++ Text.trim cs ++ List.replicate j '0' := by
  have hzero {n : ℕ} {c : Char} (h : c ∈ List.replicate n '0') : Text.isBlank c = false := by
    rw [List.eq_of_mem_replicate h]
    rfl
  apply Text.trim_eq_self
  · intro c hc
    rw [List.append_assoc, List.head?_append, List.head?_append, Option.or_eq_some_iff,
      Option.or_eq_some_iff] at hc
    rcases hc with hc | ⟨-, hc | ⟨-, hc⟩⟩
    · exact hzero (List.mem_of_head? hc)
    · exact Text.eq_false_of_head?_trim hc
    · exact hzero (List.mem_of_head? hc)
  · intro c hc
    rw [List.getLast?_append, List.getLast?_append, Option.or_eq_some_iff,
      Option.or_eq_some_iff] at hc
    rcases hc with hc | ⟨-, hc | ⟨-, hc⟩⟩
    · exact hzero (List.mem_of_getLast? hc)
    · exact Text.eq_false_of_getLast?_trim hc
    · exact hzero (List.mem_of_getLast? hc)

/-- Zeros make a decimal text of another text only where they are the only digits. -/
theorem isDecimal_pad_iff (i j : ℕ) (h : (cs ≠ [] ∧ cs ≠ ['.']) ∨ (i = 0 ∧ j = 0)) :
    IsDecimal (List.replicate i '0' ++ cs ++ List.replicate j '0') ↔ IsDecimal cs := by
  rcases h with ⟨hnil, hpoint⟩ | ⟨rfl, rfl⟩
  · have hcount :
        (List.replicate i '0' ++ cs ++ List.replicate j '0').count '.' = cs.count '.' := by
      rw [List.count_append, List.count_append, List.count_replicate, List.count_replicate]
      simp
    constructor
    · intro hd
      have hchars : ∀ c ∈ cs, c.isDigit = true ∨ c = '.' := fun c hc => hd.chars c (by simp [hc])
      have hpoints : cs.count '.' ≤ 1 := hcount ▸ hd.points
      refine ⟨hchars, hpoints, ?_⟩
      -- without a digit the text is a single point
      by_contra hnone
      have hall : cs = List.replicate cs.length '.' := List.eq_replicate_iff.2
        ⟨rfl, fun c hc => (hchars c hc).resolve_left fun hdigit => hnone ⟨c, hc, hdigit⟩⟩
      rw [hall, List.count_replicate_self] at hpoints
      rcases Nat.le_one_iff_eq_zero_or_eq_one.1 hpoints with hlen | hlen
      · exact hnil (List.eq_nil_of_length_eq_zero hlen)
      · exact hpoint (by rw [hall, hlen]; rfl)
    · intro hd
      obtain ⟨c, hc, hdigit⟩ := hd.digit
      refine ⟨fun c hc => ?_, hcount ▸ hd.points, c, by simp [hc], hdigit⟩
      rcases List.mem_append.1 hc with hc | hc
      · rcases List.mem_append.1 hc with hc | hc
        · exact .inl (Digits.replicate_zero i c hc)
        · exact hd.chars c hc
      · exact .inl (Digits.replicate_zero j c hc)
  · rw [List.replicate_zero, List.nil_append, List.append_nil]

/-- Zeros in front of a decimal text, and after its fraction, do not change the number. -/
theorem denoted_pad (i j : ℕ) (hd : IsDecimal cs) (h : j = 0 ∨ '.' ∈ cs) :
    denoted (List.replicate i '0' ++ cs ++ List.replicate j '0') = denoted cs := by
  have hzeros := Digits.replicate_zero i
  by_cases hpoint : '.' ∈ cs
  · obtain ⟨ws, fs, rfl, hws⟩ := List.eq_append_cons_of_mem hpoint
    obtain ⟨hws', hfs, -⟩ := (isDecimal_append_point_iff hws).1 hd
    have hassoc : List.replicate i '0' ++ (ws ++ '.' :: fs) ++ List.replicate j '0' =
        (List.replicate i '0' ++ ws) ++ '.' :: (fs ++ List.replicate j '0') := by
      simp
    rw [hassoc, denoted_append_point (Digits.append_iff.2 ⟨hzeros, hws'⟩)
      (Digits.append_iff.2 ⟨hfs, Digits.replicate_zero j⟩), denoted_append_point hws' hfs,
      Nat.ofDigitChars_append, Nat.ofDigitChars_replicate_zero, Nat.mul_zero,
      Nat.ofDigitChars_append, Nat.ofDigitChars_replicate_zero, List.length_append,
      List.length_replicate, pow_add, Nat.cast_mul, Nat.cast_pow, Nat.cast_ofNat]
    field_simp
  · obtain rfl := h.resolve_right hpoint
    obtain ⟨hdigits, -⟩ := (isDecimal_iff_of_point_notMem hpoint).1 hd
    rw [List.replicate_zero, List.append_nil,
      denoted_of_digits (Digits.append_iff.2 ⟨hzeros, hdigits⟩), denoted_of_digits hdigits,
      Nat.ofDigitChars_append, Nat.ofDigitChars_replicate_zero, Nat.mul_zero]

end
end SimpleLedger
