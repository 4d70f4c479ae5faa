import SimpleLedger.Bytes
import SimpleLedger.Text.Utf8
import SimpleLedger.Text.Quoted

/-!
# Hexadecimal text

Bytes are written with two lower-case digits each, and read in either case.  The reader works on
the UTF-8 bytes of the text, and tests for an even number of them before it looks at any.
-/

set_option autoImplicit false

namespace SimpleLedger
namespace Hex

/-- The lower-case digit of a number below 16. -/
def digit (n : Nat) : Char :=
  if n < 10 then Char.ofNat (48 + n) else Char.ofNat (87 + n)

/-- The digits of some bytes. -/
def encode (bs : Bytes) : String :=
  String.ofList (bs.flatMap fun b => [digit (b.toNat / 16), digit (b.toNat % 16)])

/-- The value of a digit. -/
def value? (b : UInt8) : Option Nat :=
  if 48 ≤ b ∧ b ≤ 57 then some (b.toNat - 48)
  else if 97 ≤ b ∧ b ≤ 102 then some (b.toNat - 87)
  else if 65 ≤ b ∧ b ≤ 70 then some (b.toNat - 55)
  else none

/-- Why a text is not hexadecimal. -/
inductive Error where
  | oddLength
  /-- The first byte that is no digit, and how many bytes come before it. -/
  | invalidByte (byte : UInt8) (index : Nat)
  deriving DecidableEq

/-- The byte is shown as the character with its number. -/
def Error.message : Error → String
  | .oddLength => "Odd number of digits"
  | .invalidByte b i =>
    s!"Invalid character {Text.quoteChar (Char.ofNat b.toNat)} at position {i}"

/-- The value of the digit at `index`. -/
def nibble (index : Nat) (b : UInt8) : Except Error Nat :=
  match value? b with
  | some n => .ok n
  | none => .error (.invalidByte b index)

/-- Reads digits in pairs, the first of them at `index`. -/
def decodePairs (index : Nat) : Bytes → Except Error Bytes
  | a :: b :: rest => do
    let high ← nibble index a
    let low ← nibble (index + 1) b
    let bytes ← decodePairs (index + 2) rest
    return UInt8.ofNat (16 * high + low) :: bytes
  | [_] => .error .oddLength
  | [] => .ok []

/-- The bytes that a text stands for. -/
def decode (text : String) : Except Error Bytes :=
  let digits := Utf8.encode text
  if digits.length % 2 = 1 then .error .oddLength else decodePairs 0 digits

end Hex
end SimpleLedger
