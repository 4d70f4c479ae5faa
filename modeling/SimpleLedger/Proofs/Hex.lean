import Mathlib
import SimpleLedger.Bytes.Hex

/-!
# Hexadecimal text reads back

`Hex.decode_encode`: what `Hex.encode` writes, `Hex.decode` reads as the same bytes.

The reader never sees characters, only the UTF-8 bytes of a text.  So the proof first says which
byte a digit becomes (`utf8EncodeChar_digit`), and then works on pairs of such bytes.
-/

set_option autoImplicit false

namespace SimpleLedger
namespace Hex

/-- The byte that stands for a digit. -/
def digitByte (n : Nat) : UInt8 := if n < 10 then UInt8.ofNat (48 + n) else UInt8.ofNat (87 + n)

theorem utf8EncodeChar_digit {n : Nat} (h : n < 16) :
    String.utf8EncodeChar (digit n) = [digitByte n] := by
  have hall : ∀ m : Fin 16, String.utf8EncodeChar (digit m) = [digitByte m] := by decide
  exact hall ⟨n, h⟩

theorem value?_digitByte {n : Nat} (h : n < 16) : value? (digitByte n) = some n := by
  have hall : ∀ m : Fin 16, value? (digitByte m) = some m.val := by decide
  exact hall ⟨n, h⟩

theorem nibble_digitByte (i : Nat) {n : Nat} (h : n < 16) : nibble i (digitByte n) = .ok n := by
  rw [nibble, value?_digitByte h]

/-- The two bytes that stand for a byte, the high digit first. -/
def pair (b : UInt8) : Bytes := [digitByte (b.toNat / 16), digitByte (b.toNat % 16)]

theorem utf8Encode_encode (bs : Bytes) : Utf8.encode (encode bs) = bs.flatMap pair := by
  rw [Utf8.encode, encode, String.toList_ofList]
  induction bs with
  | nil => rfl
  | cons b bs ih =>
    have hb := b.toNat_lt
    simp only [List.flatMap_cons, List.cons_append, List.nil_append, ih]
    rw [utf8EncodeChar_digit (by omega), utf8EncodeChar_digit (by omega)]
    rfl

theorem length_flatMap_pair (bs : Bytes) : (bs.flatMap pair).length = 2 * bs.length := by
  have hpair (b : UInt8) : (pair b).length = 2 := rfl
  rw [List.length_flatMap, Nat.mul_comm]
  simp only [hpair, List.map_const', List.sum_replicate_nat]

theorem length_encode (bs : Bytes) : (encode bs).length = 2 * bs.length := by
  rw [encode, String.length_ofList, List.length_flatMap, Nat.mul_comm]
  simp only [List.length_cons, List.length_nil, List.map_const', List.sum_replicate_nat]

theorem decodePairs_flatMap_pair (i : Nat) (bs : Bytes) :
    decodePairs i (bs.flatMap pair) = .ok bs := by
  induction bs generalizing i with
  | nil => rfl
  | cons b bs ih =>
    have hb := b.toNat_lt
    have hsum : 16 * (b.toNat / 16) + b.toNat % 16 = b.toNat := by omega
    simp only [List.flatMap_cons, pair, List.cons_append, List.nil_append, decodePairs]
    rw [nibble_digitByte i (by omega), nibble_digitByte (i + 1) (by omega), ih]
    simp only [bind, Except.bind, pure, Except.pure, hsum, UInt8.ofNat_toNat]

/-- **Hexadecimal text reads back.** -/
theorem decode_encode (bs : Bytes) : decode (encode bs) = .ok bs := by
  have hlen : (bs.flatMap pair).length % 2 ≠ 1 := by rw [length_flatMap_pair]; omega
  rw [decode, utf8Encode_encode]
  simp only [if_neg hlen, decodePairs_flatMap_pair]

end Hex
end SimpleLedger
