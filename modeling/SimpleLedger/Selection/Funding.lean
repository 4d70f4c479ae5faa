import SimpleLedger.Coin
import SimpleLedger.Fees

/-!
# Funding

Adds coins without tokens until a transaction can pay for itself.  An input is worth its value
less the fee for spending it, so an input may be worth less than nothing.  Coins are taken by
ascending value, and taking stops once the total exceeds what is required: meeting it exactly is
not enough to stop.
-/

set_option autoImplicit false

namespace SimpleLedger

/-! ## What inputs are worth -/

/-- A total with one more input. -/
def Fees.addInput? (fees : Fees) (total : Satoshi) (c : Coin) : Option Satoshi := do
  total.add? (← c.value.sub? fees.perInput)

/-- A total with more inputs, added in their order. -/
def Fees.addInputs? (fees : Fees) (total : Satoshi) (coins : List Coin) : Option Satoshi :=
  coins.foldlM fees.addInput? total

/-! ## Taking coins -/

/-- The coins that were taken, and what they come to. -/
structure Funding where
  inputs : List Coin
  /-- What was there before and the worth of the inputs. -/
  total : Satoshi
  deriving DecidableEq

namespace Funding

/-- Takes coins in the order given until the total exceeds `required`. -/
def take? (fees : Fees) (required : Satoshi) : Satoshi → List Coin → Option Funding
  | total, [] => some ⟨[], total⟩
  | total, c :: coins =>
    if required < total then some ⟨[], total⟩
    else do
      let rest ← take? fees required (← fees.addInput? total c) coins
      return ⟨c :: rest.inputs, rest.total⟩

/-- Coins by ascending value.  Coins of equal value keep their order. -/
def order (coins : List Coin) : List Coin := coins.mergeSort fun a b => a.value ≤ b.value

/-- Adds coins to `already` until the total exceeds `required`, or all of them.  Whether the
total is sufficient is for the caller to decide. -/
def select? (fees : Fees) (coins : List Coin) (already required : Satoshi) : Option Funding :=
  take? fees required already (order coins)

end Funding
end SimpleLedger
