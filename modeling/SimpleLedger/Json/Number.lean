/-!
# JSON numbers

`Json.Number` tells integers from numbers that are written with a fraction, an exponent or the
sign of a negative zero.  Those stand for no integer, even where their value is one.

Integers are exact.  Of any other number only what a reader of doubles takes is kept: a
significand of 64 bits and a power of ten.  The digits are taken into the significand while it
holds them.  Digits of the whole part that are left over count as powers of ten, and digits of the
fraction that are left over do not count at all.

`Json.Number.isDouble` decides whether a number is in the range of doubles.  The double is the
product of the significand and the power of ten, both of them rounded to doubles before, so near
the end of the range the answer may differ from that for the exact value.
-/

set_option autoImplicit false

namespace SimpleLedger
namespace Json

/-- A number, as far as readers tell it from others. -/
inductive Number where
  | integer (n : Int)
  /-- The number `± significand * 10 ^ exponent`. -/
  | decimal (negative : Bool) (significand : UInt64) (exponent : Int)
  deriving DecidableEq

namespace Number

/-! ## The significand -/

/-- Appends digits to a significand while 64 bits hold it, and returns the digits left over. -/
def absorb (significand : Nat) : List Char → Nat × List Char
  | [] => (significand, [])
  | d :: ds =>
    let next := 10 * significand + (d.toNat - '0'.toNat)
    if next < UInt64.size then absorb next ds else (significand, d :: ds)

/-- The significand of the digits before and after a point, and the power of ten that goes with
it. -/
def scale (whole fraction : List Char) : UInt64 × Int :=
  let (significand, excess) := absorb 0 whole
  let (significand, dropped) := absorb significand fraction
  (UInt64.ofNat significand, (excess.length + dropped.length : Int) - fraction.length)

/-- The number with the given parts, where `none` stands for a part that is not written. -/
def ofParts (negative : Bool) (whole : List Char) (fraction : Option (List Char))
    (exponent : Option Int) : Number :=
  let n := Nat.ofDigitChars 10 whole 0
  if fraction.isNone && exponent.isNone && !(negative && n == 0) then
    .integer (if negative then -n else n)
  else
    let (significand, power) := scale whole (fraction.getD [])
    .decimal negative significand (power + exponent.getD 0)

/-! ## The range of doubles -/

/-- The natural number nearest to `n` that has at most 53 binary digits before its zeros.  Of two
that are equally near, the one with an even last digit is taken. -/
def nearest (n : Nat) : Nat :=
  let unit := 1 <<< (n.log2 - 52)
  let q := n / unit
  let r := 2 * (n % unit)
  if unit < r ∨ (r = unit ∧ q % 2 = 1) then (q + 1) * unit else q * unit

/-- Numbers from here on round to no double. -/
def bound : Nat := (1 <<< 1024) - (1 <<< 970)

/-- The greatest power of ten that is a double. -/
def maxPower : Int := 308

/-- Whether a significand times a power of ten gives a double.  Negative powers only make it
smaller. -/
def inRange (significand : UInt64) (exponent : Int) : Bool :=
  significand = 0 || exponent < 0 ||
    (exponent ≤ maxPower &&
      nearest significand.toNat * nearest (Nat.pow 10 exponent.toNat) < bound)

/-- Whether a number is in the range of doubles. -/
def isDouble : Number → Bool
  | .integer n =>
    let (significand, exponent) := scale (Nat.toDigits 10 n.natAbs) []
    inRange significand exponent
  | .decimal _ significand exponent => inRange significand exponent

end Number
end Json
end SimpleLedger
