import SimpleLedger.Proofs.Hex
import SimpleLedger.Proofs.Utf8.Machine

/-!
# What hexadecimal text is read as

`Hex.decode` looks at the UTF-8 bytes of a text, and still accepts exactly the texts that consist
of hexadecimal digits: whatever else there is in a text has a byte that is no digit
(`isDigit_iff`).

* `decode_eq_ok_iff`: the accepted texts, and that the result is written as the same text in lower
  case.
* `decode_eq_oddLength_iff`, `decode_eq_invalidByte_iff`: the texts that are refused for each
  reason.  The number of bytes is tested first, and of the bytes that are no digits the first one
  is reported (`IsFirstInvalid`).
* `compare_eq_lt_iff`: byte strings are in the order of their texts.  Where two bytes differ, their
  high digits decide, or their low ones if those are the same.
-/

set_option autoImplicit false

namespace SimpleLedger
namespace Hex

/-! ## Digits as characters and as bytes -/

/-- An ASCII digit, or a letter up to F in either case. -/
def IsDigit (c : Char) : Prop :=
  '0' ≤ c ∧ c ≤ '9' ∨ 'a' ≤ c ∧ c ≤ 'f' ∨ 'A' ≤ c ∧ c ≤ 'F'

instance : DecidablePred IsDigit := fun _ => inferInstanceAs (Decidable (_ ∨ _))

/-- The same for the bytes of a text. -/
def IsDigitByte (b : UInt8) : Prop :=
  48 ≤ b ∧ b ≤ 57 ∨ 97 ≤ b ∧ b ≤ 102 ∨ 65 ≤ b ∧ b ≤ 70

instance : DecidablePred IsDigitByte := fun _ => inferInstanceAs (Decidable (_ ∨ _))

variable {a b : UInt8} {c : Char} {i : Nat}

theorem isDigit_iff_toNat : IsDigit c ↔
    48 ≤ c.toNat ∧ c.toNat ≤ 57 ∨ 97 ≤ c.toNat ∧ c.toNat ≤ 102 ∨ 65 ≤ c.toNat ∧ c.toNat ≤ 70 :=
  Iff.rfl

theorem isDigitByte_iff_toNat : IsDigitByte b ↔
    48 ≤ b.toNat ∧ b.toNat ≤ 57 ∨ 97 ≤ b.toNat ∧ b.toNat ≤ 102 ∨
      65 ≤ b.toNat ∧ b.toNat ≤ 70 :=
  Iff.rfl

theorem value?_eq_none (h : ¬IsDigitByte b) : value? b = none := by
  rw [IsDigitByte, not_or, not_or] at h
  rw [value?, if_neg h.1, if_neg h.2.1, if_neg h.2.2]

/-- Only digits are encoded in bytes that are digits. -/
theorem isDigit_iff (c : Char) : IsDigit c ↔ ∀ b ∈ String.utf8EncodeChar c, IsDigitByte b := by
  have hform := Utf8.isForm_utf8EncodeChar c
  generalize hn : c.toNat = n at hform
  rw [isDigit_iff_toNat, hn]
  generalize String.utf8EncodeChar c = bs at hform ⊢
  cases hform with
  | one hval h =>
    rw [List.forall_mem_singleton, isDigitByte_iff_toNat, hval]
  | two ha hb hval =>
    rw [List.forall_mem_cons, isDigitByte_iff_toNat]
    omega
  | three ha hb hc hval h =>
    rw [List.forall_mem_cons, isDigitByte_iff_toNat]
    omega
  | four ha hb hc hd hval h =>
    rw [List.forall_mem_cons, isDigitByte_iff_toNat]
    omega

/-- A digit is a byte with the value for which its lower case stands. -/
theorem exists_value?_of_isDigit (h : IsDigit c) :
    ∃ b n, String.utf8EncodeChar c = [b] ∧ value? b = some n ∧ n < 16 ∧ digit n = c.toLower := by
  have hall : ∀ m : Fin 128, IsDigit (Char.ofNat m) → ∃ n : Fin 16,
      String.utf8EncodeChar (Char.ofNat m) = [UInt8.ofNat m] ∧
        value? (UInt8.ofNat m) = some n.val ∧ digit n = (Char.ofNat m).toLower := by
    decide +kernel
  have hlt : c.toNat < 128 := by
    rw [isDigit_iff_toNat] at h
    omega
  have hc := hall ⟨c.toNat, hlt⟩
  rw [Char.ofNat_toNat] at hc
  obtain ⟨n, hbyte, hvalue, hdigit⟩ := hc h
  exact ⟨_, n, hbyte, hvalue, n.isLt, hdigit⟩

/-! ## Reading pairs -/

theorem nibble_of_value? {n : Nat} (i : Nat) (h : value? b = some n) : nibble i b = .ok n := by
  rw [nibble, h]

theorem nibble_of_not_isDigitByte (i : Nat) (h : ¬IsDigitByte b) :
    nibble i b = .error (.invalidByte b i) := by
  rw [nibble, value?_eq_none h]

theorem exists_nibble_of_isDigitByte (i : Nat) (h : IsDigitByte b) : ∃ n, nibble i b = .ok n := by
  rw [nibble, value?]
  split_ifs with h1 h2 h3
  · exact ⟨_, rfl⟩
  · exact ⟨_, rfl⟩
  · exact ⟨_, rfl⟩
  · exact absurd h (by rw [IsDigitByte, not_or, not_or]; exact ⟨h1, h2, h3⟩)

/-- The first byte that is no digit, and how many bytes come before it. -/
def IsFirstInvalid (bs : Bytes) (b : UInt8) (i : Nat) : Prop :=
  ∃ before after, bs = before ++ b :: after ∧ before.length = i ∧
    (∀ a ∈ before, IsDigitByte a) ∧ ¬IsDigitByte b

theorem forall_isDigitByte_or_isFirstInvalid (bs : Bytes) :
    (∀ b ∈ bs, IsDigitByte b) ∨ ∃ b i, IsFirstInvalid bs b i := by
  induction bs with
  | nil => exact .inl nofun
  | cons a bs ih =>
    by_cases ha : IsDigitByte a
    · rcases ih with hall | ⟨b, i, before, after, rfl, rfl, hbefore, hb⟩
      · exact .inl (List.forall_mem_cons.2 ⟨ha, hall⟩)
      · exact .inr ⟨b, _, a :: before, after, rfl, rfl, List.forall_mem_cons.2 ⟨ha, hbefore⟩, hb⟩
    · exact .inr ⟨a, 0, [], bs, rfl, rfl, nofun, ha⟩

/-- Pairs are read up to the first byte that is no digit. -/
theorem decodePairs_of_isFirstInvalid (hb : ¬IsDigitByte b) (after : Bytes) :
    ∀ (before : Bytes) (i : Nat), (∀ a ∈ before, IsDigitByte a) →
      (before ++ b :: after).length % 2 = 0 →
      decodePairs i (before ++ b :: after) = .error (.invalidByte b (i + before.length))
  | [], i, _, heven => by
    cases after with
    | nil => simp at heven
    | cons c after =>
      rw [List.nil_append, decodePairs, nibble_of_not_isDigitByte i hb]
      rfl
  | [a], i, hbefore, _ => by
    obtain ⟨m, hm⟩ := exists_nibble_of_isDigitByte i (hbefore a List.mem_cons_self)
    rw [List.singleton_append, decodePairs, hm, nibble_of_not_isDigitByte (i + 1) hb]
    rfl
  | a :: a' :: before, i, hbefore, heven => by
    rw [List.forall_mem_cons, List.forall_mem_cons] at hbefore
    obtain ⟨m, hm⟩ := exists_nibble_of_isDigitByte i hbefore.1
    obtain ⟨n, hn⟩ := exists_nibble_of_isDigitByte (i + 1) hbefore.2.1
    have hrest := decodePairs_of_isFirstInvalid hb after before (i + 2) hbefore.2.2 (by
      simp only [List.cons_append, List.length_cons] at heven
      omega)
    rw [List.cons_append, List.cons_append, decodePairs, hm, hn, hrest, List.length_cons,
      List.length_cons, Nat.add_assoc, Nat.add_comm 2]
    rfl

/-- The two digits of a byte. -/
def chars (b : UInt8) : List Char := [digit (b.toNat / 16), digit (b.toNat % 16)]

theorem toList_encode (bs : Bytes) : (encode bs).toList = bs.flatMap chars := by
  rw [encode, String.toList_ofList]
  rfl

theorem chars_ofNat {m n : Nat} (hm : m < 16) (hn : n < 16) :
    chars (UInt8.ofNat (16 * m + n)) = [digit m, digit n] := by
  rw [chars, UInt8.toNat_ofNat', Nat.mod_eq_of_lt (by omega)]
  congr 3 <;> omega

/-- Digits are read as the bytes that are written with them in lower case. -/
theorem decodePairs_of_isDigit :
    ∀ (cs : List Char) (i : Nat), (∀ c ∈ cs, IsDigit c) → cs.length % 2 = 0 →
      ∃ bs, decodePairs i (cs.flatMap String.utf8EncodeChar) = .ok bs ∧
        bs.flatMap chars = cs.map Char.toLower
  | [], _, _, _ => ⟨[], rfl, rfl⟩
  | [c], _, _, heven => by simp at heven
  | c :: d :: cs, i, hcs, heven => by
    rw [List.forall_mem_cons, List.forall_mem_cons] at hcs
    obtain ⟨hc, hd, hcs⟩ := hcs
    obtain ⟨a, m, hca, ham, hm, hcm⟩ := exists_value?_of_isDigit hc
    obtain ⟨b, n, hdb, hbn, hn, hdn⟩ := exists_value?_of_isDigit hd
    obtain ⟨bs, hbs, hlower⟩ := decodePairs_of_isDigit cs (i + 2) hcs (by
      simp only [List.length_cons] at heven
      omega)
    refine ⟨UInt8.ofNat (16 * m + n) :: bs, ?_, ?_⟩
    · rw [List.flatMap_cons, List.flatMap_cons, hca, hdb, List.singleton_append,
        List.singleton_append, decodePairs, nibble_of_value? i ham,
        nibble_of_value? (i + 1) hbn, hbs]
      rfl
    · rw [List.flatMap_cons, chars_ofNat hm hn, hlower, hcm, hdn]
      rfl

/-! ## Reading a text -/

theorem forall_isDigit_iff (s : String) :
    (∀ c ∈ s.toList, IsDigit c) ↔ ∀ b ∈ Utf8.encode s, IsDigitByte b := by
  rw [Utf8.encode, List.forall_mem_flatMap]
  exact forall₂_congr fun c _ => isDigit_iff c

theorem length_flatMap_utf8EncodeChar {cs : List Char} (h : ∀ c ∈ cs, IsDigit c) :
    (cs.flatMap String.utf8EncodeChar).length = cs.length := by
  induction cs with
  | nil => rfl
  | cons c cs ih =>
    rw [List.forall_mem_cons] at h
    obtain ⟨b, -, hb, -⟩ := exists_value?_of_isDigit h.1
    rw [List.flatMap_cons, hb, List.singleton_append, List.length_cons, ih h.2, List.length_cons]

theorem encode_injective : Function.Injective encode := by
  intro as bs h
  have has := decode_encode as
  rw [h, decode_encode] at has
  exact (Except.ok.inj has).symm

section

variable {s : String} {bs : Bytes}

theorem length_eq_of_encode_eq (h : encode bs = s.toLower) : s.length = 2 * bs.length := by
  rw [← length_encode, h, String.toLower, String.length_map]

theorem decode_of_isDigit (hs : ∀ c ∈ s.toList, IsDigit c) (heven : s.length % 2 = 0) :
    ∃ bs, decode s = .ok bs ∧ encode bs = s.toLower := by
  have hlen : (Utf8.encode s).length % 2 ≠ 1 := by
    rw [Utf8.encode, length_flatMap_utf8EncodeChar hs, String.length_toList]
    omega
  obtain ⟨bs, hbs, hlower⟩ := decodePairs_of_isDigit s.toList 0 hs heven
  refine ⟨bs, ?_, ?_⟩
  · rw [decode]
    simp only [if_neg hlen]
    exact hbs
  · rw [← String.toList_inj, toList_encode, hlower, String.toLower, String.toList_map]

theorem decode_of_isFirstInvalid (heven : (Utf8.encode s).length % 2 = 0)
    (h : IsFirstInvalid (Utf8.encode s) b i) : decode s = .error (.invalidByte b i) := by
  obtain ⟨before, after, hbytes, rfl, hbefore, hb⟩ := h
  have hne : (before ++ b :: after).length % 2 ≠ 1 := by rw [← hbytes]; omega
  rw [hbytes] at heven
  rw [decode, hbytes]
  simp only [if_neg hne]
  rw [decodePairs_of_isFirstInvalid hb after before 0 hbefore heven, Nat.zero_add]

/-- Every text is read in one of three ways. -/
theorem decode_cases (s : String) :
    ((Utf8.encode s).length % 2 = 1 ∧ decode s = .error .oddLength) ∨
    ((Utf8.encode s).length % 2 = 0 ∧
      ∃ b i, IsFirstInvalid (Utf8.encode s) b i ∧ decode s = .error (.invalidByte b i)) ∨
    (Utf8.encode s).length % 2 = 0 ∧ (∀ c ∈ s.toList, IsDigit c) ∧
      ∃ bs, decode s = .ok bs ∧ encode bs = s.toLower := by
  rcases Nat.mod_two_eq_zero_or_one (Utf8.encode s).length with heven | hodd
  · refine .inr ?_
    rcases forall_isDigitByte_or_isFirstInvalid (Utf8.encode s) with hall | ⟨b, i, hfirst⟩
    · rw [← forall_isDigit_iff] at hall
      have hlen : s.length % 2 = 0 := by
        rwa [Utf8.encode, length_flatMap_utf8EncodeChar hall] at heven
      exact .inr ⟨heven, hall, decode_of_isDigit hall hlen⟩
    · exact .inl ⟨heven, b, i, hfirst, decode_of_isFirstInvalid heven hfirst⟩
  · exact .inl ⟨hodd, if_pos hodd⟩

theorem decode_eq_oddLength_iff :
    decode s = .error .oddLength ↔ (Utf8.encode s).length % 2 = 1 := by
  rcases decode_cases s with ⟨hodd, h⟩ | ⟨heven, b, i, -, h⟩ | ⟨heven, -, bs, h, -⟩
  · simp only [h, hodd]
  · simp [h, heven]
  · simp [h, heven]

theorem decode_eq_invalidByte_iff : decode s = .error (.invalidByte b i) ↔
    (Utf8.encode s).length % 2 = 0 ∧ IsFirstInvalid (Utf8.encode s) b i := by
  constructor
  · intro h
    rcases decode_cases s with ⟨-, h'⟩ | ⟨heven, b', i', hfirst, h'⟩ | ⟨-, -, bs, h', -⟩
    · rw [h] at h'; cases h'
    · rw [h] at h'; cases h'
      exact ⟨heven, hfirst⟩
    · rw [h] at h'; cases h'
  · rintro ⟨heven, hfirst⟩
    exact decode_of_isFirstInvalid heven hfirst

/-- **A text is read as the bytes that are written as it is in lower case.** -/
theorem decode_eq_ok_iff :
    decode s = .ok bs ↔ (∀ c ∈ s.toList, IsDigit c) ∧ encode bs = s.toLower := by
  constructor
  · intro h
    rcases decode_cases s with ⟨-, h'⟩ | ⟨-, b, i, -, h'⟩ | ⟨-, hall, bs', h', hlower⟩
    · rw [h] at h'; cases h'
    · rw [h] at h'; cases h'
    · rw [h] at h'; cases h'
      exact ⟨hall, hlower⟩
  · rintro ⟨hall, hlower⟩
    have heven : s.length % 2 = 0 := by rw [length_eq_of_encode_eq hlower, Nat.mul_mod_right]
    obtain ⟨bs', hbs', hlower'⟩ := decode_of_isDigit hall heven
    rw [hbs', encode_injective (hlower'.trans hlower.symm)]

end

/-! ## Order -/

theorem digit_lt_digit_iff {m n : Nat} (hm : m < 16) (hn : n < 16) : digit m < digit n ↔ m < n := by
  have hall : ∀ m n : Fin 16, digit m < digit n ↔ m.val < n.val := by decide
  exact hall ⟨m, hm⟩ ⟨n, hn⟩

theorem digit_inj {m n : Nat} (hm : m < 16) (hn : n < 16) : digit m = digit n ↔ m = n := by
  have hall : ∀ m n : Fin 16, digit m = digit n ↔ m.val = n.val := by decide
  exact hall ⟨m, hm⟩ ⟨n, hn⟩

/-- The high digits decide, and where they are the same the low ones. -/
theorem chars_append_lt_iff (cs ds : List Char) :
    chars a ++ cs < chars b ++ ds ↔ a < b ∨ a = b ∧ cs < ds := by
  have ha := a.toNat_lt
  have hb := b.toNat_lt
  have hhigh := digit_lt_digit_iff (m := a.toNat / 16) (n := b.toNat / 16) (by omega) (by omega)
  have hlow := digit_lt_digit_iff (m := a.toNat % 16) (n := b.toNat % 16) (by omega) (by omega)
  have hhigh' := digit_inj (m := a.toNat / 16) (n := b.toNat / 16) (by omega) (by omega)
  have hlow' := digit_inj (m := a.toNat % 16) (n := b.toNat % 16) (by omega) (by omega)
  simp only [chars, List.cons_append, List.nil_append, List.cons_lt_cons_iff]
  rw [hhigh, hlow, hhigh', hlow', UInt8.lt_iff_toNat_lt, ← UInt8.toNat_inj]
  by_cases hlt : cs < ds
  · simp only [hlt, and_true]
    omega
  · simp only [hlt, and_false, or_false]
    omega

theorem compare_eq_lt_iff (as bs : Bytes) : compare as bs = .lt ↔ encode as < encode bs := by
  rw [String.lt_iff, toList_encode, toList_encode]
  induction as generalizing bs with
  | nil =>
    cases bs with
    | nil => decide
    | cons b bs => exact iff_of_true rfl (by rw [List.flatMap_cons]; exact List.nil_lt_cons _ _)
  | cons a as ih =>
    cases bs with
    | nil => exact iff_of_false nofun (List.not_lt_nil _)
    | cons b bs =>
      rw [List.compare_cons_cons, Ordering.then_eq_lt, List.flatMap_cons, List.flatMap_cons,
        chars_append_lt_iff, ih, Std.compare_eq_lt, Std.compare_eq_iff_eq]

end Hex
end SimpleLedger
