/-!
# Satoshi amounts

Amounts of the base currency are signed 64-bit words: totals that are net of input fees may go
below zero.  Arithmetic on them is checked.  A sum, difference or product has a value exactly when
the mathematical result fits the word:

* `Satoshi.ofInt?_eq_some_iff` says when an integer is an amount, and the laws of `add?`, `sub?`
  and `mul?` follow from it.
* `Satoshi.ofCount` turns the length of a list into an amount.  It does not check: a count is a
  64-bit word already, and is read as a signed one.
-/

set_option autoImplicit false

namespace SimpleLedger

/-- An amount of the base currency. -/
abbrev Satoshi := Int64

namespace Satoshi

/-- The amount equal to `n`, if the word can hold it. -/
def ofInt? (n : Int) : Option Satoshi :=
  if Int64.minValue.toInt ≤ n ∧ n ≤ Int64.maxValue.toInt then some (Int64.ofInt n) else none

theorem ofInt?_eq_some_iff {n : Int} {s : Satoshi} : ofInt? n = some s ↔ s.toInt = n := by
  unfold ofInt?
  split
  next h =>
    have hlt := Int.lt_add_one_of_le h.2
    rw [Int64.toInt_minValue] at h
    rw [Int64.toInt_maxValue_add_one] at hlt
    rw [Option.some.injEq, ← Int64.toInt_inj, Int64.toInt_ofInt_of_le h.1 hlt]
    exact eq_comm
  next h =>
    simp only [reduceCtorEq, false_iff]
    rintro rfl
    exact h ⟨Int64.minValue_le_toInt s, Int64.toInt_le s⟩

/-- The sum of two amounts, if it fits. -/
def add? (a b : Satoshi) : Option Satoshi := ofInt? (a.toInt + b.toInt)

/-- The difference of two amounts, if it fits. -/
def sub? (a b : Satoshi) : Option Satoshi := ofInt? (a.toInt - b.toInt)

/-- The product of two amounts, if it fits. -/
def mul? (a b : Satoshi) : Option Satoshi := ofInt? (a.toInt * b.toInt)

theorem add?_eq_some_iff {a b c : Satoshi} : add? a b = some c ↔ c.toInt = a.toInt + b.toInt :=
  ofInt?_eq_some_iff

theorem sub?_eq_some_iff {a b c : Satoshi} : sub? a b = some c ↔ c.toInt = a.toInt - b.toInt :=
  ofInt?_eq_some_iff

theorem mul?_eq_some_iff {a b c : Satoshi} : mul? a b = some c ↔ c.toInt = a.toInt * b.toInt :=
  ofInt?_eq_some_iff

/-- The sum from the left.  Every partial sum has to fit. -/
def sum? (xs : List Satoshi) : Option Satoshi :=
  xs.foldlM add? 0

/-- A count as an amount, modulo `2 ^ 64`. -/
def ofCount (n : Nat) : Satoshi := Int64.ofNat n

/-- One more than a count.  Counts are 64-bit words, and the largest has no successor. -/
def succCount? (n : Nat) : Option Nat :=
  if n + 1 < UInt64.size then some (n + 1) else none

end Satoshi
end SimpleLedger
