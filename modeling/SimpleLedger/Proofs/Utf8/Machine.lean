import Mathlib
import SimpleLedger.Text.Utf8

/-!
# Text in UTF-8 reads back

The reader of UTF-8 is a machine that takes a byte at a time.  This file ties it to
`String.utf8EncodeChar`, by way of a table of the forms that encoded characters have:

* `IsForm bs n`: the bytes `bs` have the form of an encoded character, and its number is `n`.
* `Completes q bs c`: the bytes `bs` take the machine from the state `q` to the end of the
  character `c`, with nothing replaced on the way.
* `completes_start_iff`: from the start, the machine completes exactly the encoded characters.
* `decodeLossy_encode`: a text that was encoded reads as the same text.
-/

set_option autoImplicit false

namespace SimpleLedger
namespace Utf8

/-! ## The forms of encoded characters -/

/-- `b` is not the first byte of its character. -/
def IsTail (b : UInt8) : Prop := 0x80 ≤ b ∧ b ≤ 0xbf

theorem isTail_iff {b : UInt8} : IsTail b ↔ 0x80 ≤ b.toNat ∧ b.toNat ≤ 0xbf := Iff.rfl

/-- Bytes that are the encoding of the character with a number. -/
inductive IsForm : Bytes → Nat → Prop where
  | one {a : UInt8} {n : Nat} (hn : n = a.toNat) (h : n ≤ 0x7f) : IsForm [a] n
  | two {a b : UInt8} {n : Nat} (ha : 0xc2 ≤ a.toNat ∧ a.toNat ≤ 0xdf) (hb : IsTail b)
      (hn : n = a.toNat % 32 * 64 + b.toNat % 64) : IsForm [a, b] n
  | three {a b c : UInt8} {n : Nat} (ha : 0xe0 ≤ a.toNat ∧ a.toNat ≤ 0xef) (hb : IsTail b)
      (hc : IsTail c) (hn : n = (a.toNat % 16 * 64 + b.toNat % 64) * 64 + c.toNat % 64)
      (h : 0x800 ≤ n ∧ n < 0xd800 ∨ 0xdfff < n) : IsForm [a, b, c] n
  | four {a b c d : UInt8} {n : Nat} (ha : 0xf0 ≤ a.toNat ∧ a.toNat ≤ 0xf4) (hb : IsTail b)
      (hc : IsTail c) (hd : IsTail d)
      (hn : n = ((a.toNat % 8 * 64 + b.toNat % 64) * 64 + c.toNat % 64) * 64 + d.toNat % 64)
      (h : 0x10000 ≤ n ∧ n < 0x110000) : IsForm [a, b, c, d] n

theorem ofNat_eq_of_toNat {n : Nat} {b : UInt8} (h : n = b.toNat) : UInt8.ofNat n = b := by
  rw [h, UInt8.ofNat_toNat]

theorem toNat_ofNat_of_lt {n : Nat} (h : n < 256) : (UInt8.ofNat n).toNat = n := by
  rw [UInt8.toNat_ofNat', Nat.mod_eq_of_lt h]

theorem IsForm.isValidChar {bs : Bytes} {n : Nat} (h : IsForm bs n) : n.isValidChar := by
  unfold Nat.isValidChar
  cases h with
  | one hn h => omega
  | two ha hb hn => omega
  | three ha hb hc hn h => omega
  | four ha hb hc hd hn h => omega

theorem IsForm.utf8EncodeChar {bs : Bytes} {n : Nat} (h : IsForm bs n) :
    String.utf8EncodeChar (Char.ofNat n) = bs := by
  have hval : (Char.ofNat n).val.toNat = n :=
    (Char.toNat_ofNat n).trans (if_pos h.isValidChar)
  rw [String.utf8EncodeChar, hval]
  cases h with
  | one hn h => rw [if_pos h, ofNat_eq_of_toNat hn]
  | @two a b _ ha hb hn =>
    rw [isTail_iff] at hb
    have h1 : UInt8.ofNat (n / 64 % 0x20 + 0xc0) = a := ofNat_eq_of_toNat (by omega)
    have h2 : UInt8.ofNat (n % 0x40 + 0x80) = b := ofNat_eq_of_toNat (by omega)
    rw [if_neg (by omega), if_pos (by omega), h1, h2]
  | @three a b c _ ha hb hc hn h =>
    rw [isTail_iff] at hb hc
    have h1 : UInt8.ofNat (n / 4096 % 0x10 + 0xe0) = a := ofNat_eq_of_toNat (by omega)
    have h2 : UInt8.ofNat (n / 64 % 0x40 + 0x80) = b := ofNat_eq_of_toNat (by omega)
    have h3 : UInt8.ofNat (n % 0x40 + 0x80) = c := ofNat_eq_of_toNat (by omega)
    rw [if_neg (by omega), if_neg (by omega), if_pos (by omega), h1, h2, h3]
  | @four a b c d _ ha hb hc hd hn h =>
    rw [isTail_iff] at hb hc hd
    have h1 : UInt8.ofNat (n / 262144 % 8 + 0xf0) = a := ofNat_eq_of_toNat (by omega)
    have h2 : UInt8.ofNat (n / 4096 % 0x40 + 0x80) = b := ofNat_eq_of_toNat (by omega)
    have h3 : UInt8.ofNat (n / 64 % 0x40 + 0x80) = c := ofNat_eq_of_toNat (by omega)
    have h4 : UInt8.ofNat (n % 0x40 + 0x80) = d := ofNat_eq_of_toNat (by omega)
    rw [if_neg (by omega), if_neg (by omega), if_neg (by omega), h1, h2, h3, h4]

/-- Every character is encoded in one of the forms. -/
theorem isForm_utf8EncodeChar (c : Char) : IsForm (String.utf8EncodeChar c) c.toNat := by
  have hvalid : c.toNat < 0xd800 ∨ 0xdfff < c.toNat ∧ c.toNat < 0x110000 := c.valid
  have htail (m : Nat) : IsTail (UInt8.ofNat (m % 64 + 128)) := by
    rw [isTail_iff, toNat_ofNat_of_lt (by omega)]
    omega
  rw [String.utf8EncodeChar, Char.toNat] at *
  generalize c.val.toNat = n at *
  split
  next h => exact .one (toNat_ofNat_of_lt (by omega)).symm h
  next h1 =>
  split
  next h2 =>
    refine .two ?_ (htail n) ?_
    · rw [toNat_ofNat_of_lt (by omega)]; omega
    · rw [toNat_ofNat_of_lt (by omega), toNat_ofNat_of_lt (by omega)]; omega
  next h2 =>
  split
  next h3 =>
    refine .three ?_ (htail (n / 64)) (htail n) ?_ (by omega)
    · rw [toNat_ofNat_of_lt (by omega)]; omega
    · rw [toNat_ofNat_of_lt (by omega), toNat_ofNat_of_lt (by omega),
        toNat_ofNat_of_lt (by omega)]
      omega
  next h3 =>
    refine .four ?_ (htail (n / 4096)) (htail (n / 64)) (htail n) ?_ (by omega)
    · rw [toNat_ofNat_of_lt (by omega)]; omega
    · rw [toNat_ofNat_of_lt (by omega), toNat_ofNat_of_lt (by omega),
        toNat_ofNat_of_lt (by omega), toNat_ofNat_of_lt (by omega)]
      omega

/-! ## The machine and the forms -/

/-- The bytes that take the machine from a state to the end of a character. -/
inductive Completes : State → Bytes → Char → Prop where
  | ascii {b : UInt8} (h : b.toNat ≤ 0x7f) : Completes .start [b] (Char.ofNat b.toNat)
  | lead {b : UInt8} {code n : Nat} {low high : UInt8} {bs : Bytes} {c : Char}
      (h : first b = ([], .inside code n low high))
      (others : Completes (.inside code n low high) bs c) : Completes .start (b :: bs) c
  | last {code : Nat} {low high b : UInt8} (h : low ≤ b ∧ b ≤ high) :
      Completes (.inside code 0 low high) [b] (Char.ofNat (code * 64 + b.toNat % 64))
  | more {code n : Nat} {low high b : UInt8} {bs : Bytes} {c : Char} (h : low ≤ b ∧ b ≤ high)
      (others : Completes (.inside (code * 64 + b.toNat % 64) n 0x80 0xbf) bs c) :
      Completes (.inside code (n + 1) low high) (b :: bs) c

theorem first_eq (b : UInt8) :
    first b =
      if b.toNat ≤ 0x7f then ([Char.ofNat b.toNat], .start)
      else if 0xc2 ≤ b.toNat ∧ b.toNat ≤ 0xdf then ([], .inside (b.toNat % 32) 0 0x80 0xbf)
      else if b.toNat = 0xe0 then ([], .inside 0 1 0xa0 0xbf)
      else if b.toNat = 0xed then ([], .inside 13 1 0x80 0x9f)
      else if 0xe1 ≤ b.toNat ∧ b.toNat ≤ 0xef then ([], .inside (b.toNat % 16) 1 0x80 0xbf)
      else if b.toNat = 0xf0 then ([], .inside 0 2 0x90 0xbf)
      else if 0xf1 ≤ b.toNat ∧ b.toNat ≤ 0xf3 then ([], .inside (b.toNat % 8) 2 0x80 0xbf)
      else if b.toNat = 0xf4 then ([], .inside 4 2 0x80 0x8f)
      else (['\uFFFD'], .start) := by
  simp only [first, UInt8.le_iff_toNat_le, ← UInt8.toNat_inj]
  rfl

/-- What the first byte of a longer character says about the bytes that follow.  Some first bytes
narrow the range of the second. -/
theorem first_eq_inside {a : UInt8} {code n : Nat} {low high : UInt8}
    (h : first a = ([], .inside code n low high)) :
    0x80 ≤ low.toNat ∧ low.toNat ≤ high.toNat ∧ high.toNat ≤ 0xbf ∧
      (n = 0 ∧ 0xc2 ≤ a.toNat ∧ a.toNat ≤ 0xdf ∧ code = a.toNat % 32 ∨
        n = 1 ∧ 0xe0 ≤ a.toNat ∧ a.toNat ≤ 0xef ∧ code = a.toNat % 16 ∧
          (a.toNat = 0xe0 → 0xa0 ≤ low.toNat) ∧ (a.toNat = 0xed → high.toNat ≤ 0x9f) ∨
        n = 2 ∧ 0xf0 ≤ a.toNat ∧ a.toNat ≤ 0xf4 ∧ code = a.toNat % 8 ∧
          (a.toNat = 0xf0 → 0x90 ≤ low.toNat) ∧ (a.toNat = 0xf4 → high.toNat ≤ 0x8f)) := by
  rw [first_eq] at h
  split_ifs at h <;> cases h <;> simp <;> omega

theorem IsForm.completes {bs : Bytes} {n : Nat} (h : IsForm bs n) :
    Completes .start bs (Char.ofNat n) := by
  cases h with
  | one hn h => subst hn; exact .ascii h
  | two ha hb hn =>
    subst hn
    refine .lead ?_ (.last hb)
    rw [first_eq, if_neg (by omega), if_pos ha]
  | @three a b c _ ha hb hc hn h =>
    subst hn
    have hb' := isTail_iff.1 hb
    by_cases h0 : a.toNat = 0xe0
    · rw [h0] at h ⊢
      have hlow : 0xa0 ≤ b := show 0xa0 ≤ b.toNat by omega
      refine .lead ?_ (.more ⟨hlow, hb.2⟩ (.last hc))
      rw [first_eq, if_neg (by omega), if_neg (by omega), if_pos h0]
    by_cases hd : a.toNat = 0xed
    · rw [hd] at h ⊢
      have hhigh : b ≤ 0x9f := show b.toNat ≤ 0x9f by omega
      refine .lead ?_ (.more ⟨hb.1, hhigh⟩ (.last hc))
      rw [first_eq, if_neg (by omega), if_neg (by omega), if_neg h0, if_pos hd]
    · refine .lead ?_ (.more hb (.last hc))
      rw [first_eq, if_neg (by omega), if_neg (by omega), if_neg h0, if_neg hd, if_pos (by omega)]
  | @four a b c d _ ha hb hc hd hn h =>
    subst hn
    have hb' := isTail_iff.1 hb
    by_cases h0 : a.toNat = 0xf0
    · rw [h0] at h ⊢
      have hlow : 0x90 ≤ b := show 0x90 ≤ b.toNat by omega
      refine .lead ?_ (.more ⟨hlow, hb.2⟩ (.more hc (.last hd)))
      rw [first_eq, if_neg (by omega), if_neg (by omega), if_neg (by omega), if_neg (by omega),
        if_neg (by omega), if_pos h0]
    by_cases h4 : a.toNat = 0xf4
    · rw [h4] at h ⊢
      have hhigh : b ≤ 0x8f := show b.toNat ≤ 0x8f by omega
      refine .lead ?_ (.more ⟨hb.1, hhigh⟩ (.more hc (.last hd)))
      rw [first_eq, if_neg (by omega), if_neg (by omega), if_neg (by omega), if_neg (by omega),
        if_neg (by omega), if_neg h0, if_neg (by omega), if_pos h4]
    · refine .lead ?_ (.more hb (.more hc (.last hd)))
      rw [first_eq, if_neg (by omega), if_neg (by omega), if_neg (by omega), if_neg (by omega),
        if_neg (by omega), if_neg h0, if_pos (by omega)]

theorem Completes.of_last {code : Nat} {low high : UInt8} {bs : Bytes} {c : Char}
    (h : Completes (.inside code 0 low high) bs c) :
    ∃ b, bs = [b] ∧ (low ≤ b ∧ b ≤ high) ∧ c = Char.ofNat (code * 64 + b.toNat % 64) := by
  cases h with
  | last h => exact ⟨_, rfl, h, rfl⟩

theorem Completes.of_more {code n : Nat} {low high : UInt8} {bs : Bytes} {c : Char}
    (h : Completes (.inside code (n + 1) low high) bs c) :
    ∃ b bs', bs = b :: bs' ∧ (low ≤ b ∧ b ≤ high) ∧
      Completes (.inside (code * 64 + b.toNat % 64) n 0x80 0xbf) bs' c := by
  cases h with
  | more h others => exact ⟨_, _, rfl, h, others⟩

theorem Completes.exists_isForm {bs : Bytes} {c : Char} (h : Completes .start bs c) :
    ∃ n, IsForm bs n ∧ c = Char.ofNat n := by
  cases h with
  | ascii h => exact ⟨_, .one rfl h, rfl⟩
  | @lead a code n low high _ _ hfirst others =>
    obtain ⟨hlow, -, hhigh, ⟨rfl, ha, ha', rfl⟩ | ⟨rfl, ha, ha', rfl, hl, hh⟩ |
      ⟨rfl, ha, ha', rfl, hl, hh⟩⟩ := first_eq_inside hfirst
    · obtain ⟨b, rfl, hb, rfl⟩ := others.of_last
      have hb : IsTail b := ⟨Nat.le_trans hlow hb.1, Nat.le_trans hb.2 hhigh⟩
      exact ⟨_, .two ⟨ha, ha'⟩ hb rfl, rfl⟩
    · obtain ⟨b, _, rfl, hrange, others⟩ := others.of_more
      obtain ⟨c, rfl, hc, rfl⟩ := others.of_last
      have hb : IsTail b := ⟨Nat.le_trans hlow hrange.1, Nat.le_trans hrange.2 hhigh⟩
      rw [UInt8.le_iff_toNat_le, UInt8.le_iff_toNat_le] at hrange
      have hb' := isTail_iff.1 hb
      exact ⟨_, .three ⟨ha, ha'⟩ hb hc rfl (by omega), rfl⟩
    · obtain ⟨b, _, rfl, hrange, others⟩ := others.of_more
      obtain ⟨c, _, rfl, hc, others⟩ := others.of_more
      obtain ⟨d, rfl, hd, rfl⟩ := others.of_last
      have hb : IsTail b := ⟨Nat.le_trans hlow hrange.1, Nat.le_trans hrange.2 hhigh⟩
      rw [UInt8.le_iff_toNat_le, UInt8.le_iff_toNat_le] at hrange
      have hb' := isTail_iff.1 hb
      exact ⟨_, .four ⟨ha, ha'⟩ hb hc hd rfl (by omega), rfl⟩

/-- **From the start, the machine completes exactly the encoded characters.** -/
theorem completes_start_iff {bs : Bytes} {c : Char} :
    Completes .start bs c ↔ String.utf8EncodeChar c = bs := by
  constructor
  · intro h
    obtain ⟨n, hform, rfl⟩ := h.exists_isForm
    exact hform.utf8EncodeChar
  · rintro rfl
    have h := (isForm_utf8EncodeChar c).completes
    rwa [Char.ofNat_toNat] at h

/-! ## Reading -/

theorem run_cons (q : State) (b : UInt8) (bs : Bytes) :
    run q (b :: bs) = (step q b).1 ++ run (step q b).2 bs := by
  cases q <;> rfl

/-- A character that is completed is read, and the machine is back at the start. -/
theorem Completes.run_append {q : State} {bs : Bytes} {c : Char} (h : Completes q bs c)
    (rest : Bytes) : run q (bs ++ rest) = c :: run .start rest := by
  induction h with
  | ascii h =>
    rw [List.singleton_append, run_cons, step, first_eq, if_pos h]
    rfl
  | lead h _ ih => rw [List.cons_append, run_cons, step, h, List.nil_append, ih]
  | last h =>
    rw [List.singleton_append, run_cons, step, if_pos h]
    rfl
  | more h _ ih =>
    rw [List.cons_append, run_cons, step, if_pos h, List.nil_append, ih]

theorem run_flatMap_utf8EncodeChar (cs : List Char) :
    run .start (cs.flatMap String.utf8EncodeChar) = cs := by
  induction cs with
  | nil => rfl
  | cons c cs ih => rw [List.flatMap_cons, (completes_start_iff.2 rfl).run_append, ih]

/-- **Text reads back.** -/
theorem decodeLossy_encode (s : String) : decodeLossy (encode s) = s := by
  rw [decodeLossy, encode, run_flatMap_utf8EncodeChar, String.ofList_toList]

end Utf8
end SimpleLedger
