import Mathlib
import SimpleLedger.Satoshi

/-!
# The range of amounts

An integer is an amount just if it is in range.  `Satoshi.Within` says of checked arithmetic that
it has a value, and between which bounds; `within_add?` and its kin give the bounds of one step,
and `Within.bind` puts steps together.

A sum is checked from the left, so that it may leave the range and come back.  `Satoshi.exists_sum?`
says that amounts which are not negative do not do that.
-/

set_option autoImplicit false

namespace SimpleLedger
namespace Satoshi

/-- The numbers that are amounts. -/
def InRange (n : Int) : Prop := -2 ^ 63 ≤ n ∧ n < 2 ^ 63

theorem exists_toInt_eq_iff {n : Int} : (∃ s : Satoshi, s.toInt = n) ↔ InRange n := by
  constructor
  · rintro ⟨s, rfl⟩
    exact ⟨Int64.le_toInt s, Int64.toInt_lt s⟩
  · rintro ⟨hle, hlt⟩
    exact ⟨Int64.ofInt n, Int64.toInt_ofInt_of_le hle hlt⟩

theorem toInt_ofCount {n : Nat} (h : n < 2 ^ 63) : (ofCount n).toInt = n :=
  Int64.toInt_ofNat_of_lt h

/-! ## Bounds -/

/-- There is an amount, and it is between two bounds. -/
def Within (lo hi : Int) (o : Option Satoshi) : Prop :=
  ∃ s : Satoshi, o = some s ∧ lo ≤ s.toInt ∧ s.toInt ≤ hi

section

variable {lo hi lo' hi' : Int} {a b : Satoshi} {o : Option Satoshi}

theorem within_ofInt? {n : Int} (hlo : lo ≤ n) (hhi : n ≤ hi) (hmin : -2 ^ 63 ≤ lo)
    (hmax : hi < 2 ^ 63) : Within lo hi (ofInt? n) := by
  obtain ⟨s, hs⟩ := exists_toInt_eq_iff.2 ⟨Int.le_trans hmin hlo, Int.lt_of_le_of_lt hhi hmax⟩
  exact ⟨s, ofInt?_eq_some_iff.2 hs, hs ▸ hlo, hs ▸ hhi⟩

theorem within_add? (hlo : lo ≤ a.toInt + b.toInt) (hhi : a.toInt + b.toInt ≤ hi)
    (hmin : -2 ^ 63 ≤ lo) (hmax : hi < 2 ^ 63) : Within lo hi (a.add? b) :=
  within_ofInt? hlo hhi hmin hmax

theorem within_sub? (hlo : lo ≤ a.toInt - b.toInt) (hhi : a.toInt - b.toInt ≤ hi)
    (hmin : -2 ^ 63 ≤ lo) (hmax : hi < 2 ^ 63) : Within lo hi (a.sub? b) :=
  within_ofInt? hlo hhi hmin hmax

/-- A product of amounts that are not negative. -/
theorem within_mul? {m n : Int} (ha : 0 ≤ a.toInt) (ham : a.toInt ≤ m) (hb : 0 ≤ b.toInt)
    (hbn : b.toInt ≤ n) (hmax : m * n < 2 ^ 63) : Within 0 (m * n) (a.mul? b) :=
  within_ofInt? (Int.mul_nonneg ha hb) (Int.mul_le_mul ham hbn hb (Int.le_trans ha ham))
    (by decide) hmax

/-- What is computed from an amount within bounds is computed for each of them. -/
theorem Within.bind {f : Satoshi → Option Satoshi} (h : Within lo hi o)
    (hf : ∀ s : Satoshi, lo ≤ s.toInt → s.toInt ≤ hi → Within lo' hi' (f s)) :
    Within lo' hi' (o >>= f) := by
  obtain ⟨s, rfl, hlo, hhi⟩ := h
  exact hf s hlo hhi

end

/-! ## Sums -/

theorem toInt_of_foldlM_add? {xs : List Satoshi} {total s : Satoshi}
    (h : xs.foldlM add? total = some s) : s.toInt = total.toInt + (xs.map Int64.toInt).sum := by
  induction xs generalizing total with
  | nil =>
    cases h
    rw [List.map_nil, List.sum_nil, Int.add_zero]
  | cons x xs ih =>
    rw [List.foldlM_cons, Option.bind_eq_bind, Option.bind_eq_some_iff] at h
    obtain ⟨t, ht, h⟩ := h
    rw [ih h, add?_eq_some_iff.1 ht, List.map_cons, List.sum_cons, Int.add_assoc]

theorem toInt_of_sum? {xs : List Satoshi} {s : Satoshi} (h : sum? xs = some s) :
    s.toInt = (xs.map Int64.toInt).sum := by
  rw [toInt_of_foldlM_add? h, Int64.toInt_zero, Int.zero_add]

theorem sum_toInt_nonneg {xs : List Satoshi} (h : ∀ x ∈ xs, 0 ≤ x.toInt) :
    0 ≤ (xs.map Int64.toInt).sum := by
  induction xs with
  | nil => exact Int.le_refl 0
  | cons x xs ih =>
    rw [List.forall_mem_cons] at h
    have := ih h.2
    rw [List.map_cons, List.sum_cons]
    omega

theorem exists_foldlM_add? {xs : List Satoshi} {total : Satoshi} (h : ∀ x ∈ xs, 0 ≤ x.toInt)
    (htotal : 0 ≤ total.toInt) (hsum : total.toInt + (xs.map Int64.toInt).sum < 2 ^ 63) :
    ∃ s, xs.foldlM add? total = some s := by
  induction xs generalizing total with
  | nil => exact ⟨total, rfl⟩
  | cons x xs ih =>
    rw [List.forall_mem_cons] at h
    rw [List.map_cons, List.sum_cons] at hsum
    have hrest := sum_toInt_nonneg h.2
    -- what comes after `x` can only add to the total, so the total with `x` is below the end
    obtain ⟨t, ht, hlo, hhi⟩ : Within 0 (2 ^ 63 - 1) (total.add? x) :=
      within_add? (by omega) (by omega) (by decide) (by decide)
    have htoInt := add?_eq_some_iff.1 ht
    obtain ⟨s, hs⟩ := @ih t h.2 hlo (by omega)
    exact ⟨s, by rw [List.foldlM_cons, ht]; exact hs⟩

/-- **A sum of amounts that are not negative** is in range from the first to the last if it is at
the end. -/
theorem exists_sum? {xs : List Satoshi} (h : ∀ x ∈ xs, 0 ≤ x.toInt)
    (hsum : (xs.map Int64.toInt).sum < 2 ^ 63) : ∃ s, sum? xs = some s := by
  refine exists_foldlM_add? h (Int.le_refl 0) ?_
  rwa [Int64.toInt_zero, Int.zero_add]

end Satoshi
end SimpleLedger
