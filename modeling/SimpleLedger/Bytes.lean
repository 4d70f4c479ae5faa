/-!
# Byte strings

Scripts, identifiers and encoded text are lists of bytes.  Numbers are written into them with a
fixed number of base 256 digits: lengths of pushes start with the least significant digit,
quantities with the most significant one.

`Digest` is a string of exactly 32 bytes.
-/

set_option autoImplicit false

namespace SimpleLedger

/-- A string of bytes, the first one in front. -/
abbrev Bytes := List UInt8

namespace Bytes

/-- The `n` lowest base 256 digits of `v`, least significant first. -/
def littleEndian : Nat → Nat → Bytes
  | 0, _ => []
  | n + 1, v => UInt8.ofNat v :: littleEndian n (v / 256)

/-- The number with these base 256 digits, least significant first. -/
def ofLittleEndian : Bytes → Nat
  | [] => 0
  | b :: bs => b.toNat + 256 * ofLittleEndian bs

/-- The `n` lowest base 256 digits of `v`, most significant first. -/
def bigEndian (n v : Nat) : Bytes := (littleEndian n v).reverse

/-- The number with these base 256 digits, most significant first. -/
def ofBigEndian (bs : Bytes) : Nat := ofLittleEndian bs.reverse

@[simp]
theorem length_littleEndian (n v : Nat) : (littleEndian n v).length = n := by
  induction n generalizing v with
  | zero => rfl
  | succ n ih => simp [littleEndian, ih]

@[simp]
theorem length_bigEndian (n v : Nat) : (bigEndian n v).length = n := by simp [bigEndian]

end Bytes

/-! ## Digests -/

/-- A string of exactly 32 bytes. -/
structure Digest where
  bytes : Bytes
  length_bytes : bytes.length = 32
  deriving DecidableEq

/-- The digest with these bytes, if there are 32 of them. -/
def Digest.ofBytes? (bs : Bytes) : Option Digest :=
  if h : bs.length = 32 then some ⟨bs, h⟩ else none

theorem Digest.ofBytes?_eq_some_iff {bs : Bytes} {d : Digest} :
    ofBytes? bs = some d ↔ d.bytes = bs := by
  unfold ofBytes?
  split
  next h =>
    constructor
    · rintro h'; cases h'; rfl
    · rintro rfl; rfl
  next h =>
    simp only [reduceCtorEq, false_iff]
    rintro rfl
    exact h d.length_bytes

end SimpleLedger
