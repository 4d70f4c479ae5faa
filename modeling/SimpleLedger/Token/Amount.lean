import SimpleLedger.Text.Blank
import SimpleLedger.Token.Descriptor

/-!
# Amounts in decimal and in units

On the ledger a quantity counts the smallest units of a token, in 64 bits.  People write it as a
decimal numeral, in which the last of the token's decimals is one unit.

* `Descriptor.toRaw` scales a numeral to units.  Digits beyond the decimals are an error, except
  for tokens without decimals, where the fraction is cut off.
* `Amount.format` writes a quantity as the shortest numeral.
-/

set_option autoImplicit false

namespace SimpleLedger

/-- The greatest quantity. -/
def maxQuantity : Nat := UInt64.size - 1

theorem toNat_le_maxQuantity (q : UInt64) : q.toNat ≤ maxQuantity := by
  have := q.toNat_lt
  rw [maxQuantity, UInt64.size]
  omega

theorem toNat_ofNat_of_le {n : Nat} (h : n ≤ maxQuantity) : (UInt64.ofNat n).toNat = n := by
  rw [UInt64.toNat_ofNat', Nat.mod_eq_of_lt]
  rw [maxQuantity, UInt64.size] at h
  omega

/-! ## Numerals -/

/-- The digits before and after the point of a numeral. -/
structure Numeral where
  whole : List Char
  fraction : List Char
  deriving DecidableEq

namespace Numeral

/-- Reads digits with at most one point among them.  There has to be a digit, but not on both
sides of the point; white space around the numeral does not matter. -/
def parse? (text : String) : Option Numeral :=
  let body := Text.trim text.toList
  let whole := body.takeWhile (· ≠ '.')
  let fraction := (body.dropWhile (· ≠ '.')).drop 1
  if whole.isEmpty && fraction.isEmpty then none
  else if whole.all Char.isDigit && fraction.all Char.isDigit then some ⟨whole, fraction⟩
  else none

/-- The whole part as a number within range.  Zeros in front are skipped, and digits that are more
than any quantity has are not read. -/
def floor? (n : Numeral) : Option Nat :=
  let digits := n.whole.dropWhile (· = '0')
  if 20 < digits.length then none
  else
    let value := Nat.ofDigitChars 10 digits 0
    if maxQuantity < value then none else some value

/-- The fraction without the zeros at its end. -/
def significant (n : Numeral) : List Char := Text.dropTrailing (· = '0') n.fraction

end Numeral

/-! ## To units -/

/-- The quantity that `amount` denotes.  Whether the whole part fits is tested before the digits
of the fraction are counted. -/
def Descriptor.toRaw (token : Descriptor) (amount : String) : Except AmountError UInt64 :=
  if maxDecimals < token.decimals then .error (.unsupportedDecimals token.decimals)
  else
    match Numeral.parse? amount with
    | none => .error (.malformed amount)
    | some n =>
      let places := token.decimals.toNat
      let fraction := n.significant
      match n.floor? with
      | none => .error (.range amount)
      | some whole =>
        if whole = maxQuantity ∧ fraction ≠ [] then .error (.range amount)
        else if places = 0 then .ok (UInt64.ofNat whole)
        else if places < fraction.length then
          .error (.precision token.ticker token.decimals amount)
        else
          let raw := whole * Nat.pow 10 places +
            Nat.ofDigitChars 10 fraction 0 * Nat.pow 10 (places - fraction.length)
          if maxQuantity < raw then .error (.range amount) else .ok (UInt64.ofNat raw)

/-! ## From units -/

namespace Amount

/-- The digits of `n`, with zeros in front where there are fewer than `width`. -/
def paddedDigits (width n : Nat) : List Char :=
  let digits := Nat.toDigits 10 n
  List.replicate (width - digits.length) '0' ++ digits

/-- The numeral of `raw` units of a token with `decimals` decimals, without zeros at the end of
the fraction and without a point that nothing follows. -/
def format (raw : UInt64) (decimals : UInt8) : String :=
  let places := decimals.toNat
  let digits := paddedDigits (places + 1) raw.toNat
  let whole := digits.take (digits.length - places)
  let fraction := Text.dropTrailing (· = '0') (digits.drop (digits.length - places))
  String.ofList (if fraction.isEmpty then whole else whole ++ '.' :: fraction)

end Amount
end SimpleLedger
