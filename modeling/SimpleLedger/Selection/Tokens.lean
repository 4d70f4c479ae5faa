import SimpleLedger.Error
import SimpleLedger.Selection.Basic
import SimpleLedger.Selection.Funding

/-!
# Selecting the inputs of a SEND

The selection works in two passes.

1. Coins with the token are taken by ascending quantity until they hold what is asked for.  This
   sweeps up small holdings.
2. What those coins are worth in currency counts towards the outputs and the fee.  If it does not
   suffice, coins without tokens are added (`Funding.select?`).

Tokens left over go to an output of their own, which the currency has to pay for too.
-/

set_option autoImplicit false

namespace SimpleLedger

/-! ## Quantities -/

/-- The sum of quantities as a number. -/
def totalQuantity : List UInt64 → Nat
  | [] => 0
  | q :: qs => q.toNat + totalQuantity qs

/-- The sum of quantities, if it is a quantity. -/
def sumQuantities? (qs : List UInt64) : Option UInt64 :=
  if totalQuantity qs ≤ maxQuantity then some (UInt64.ofNat (totalQuantity qs)) else none

/-- The quantity closest to a number. -/
def clampQuantity (n : Nat) : UInt64 := UInt64.ofNat (min n maxQuantity)

namespace Selection

/-! ## First pass -/

/-- The coins with the token by ascending quantity.  Coins of equal quantity keep their order. -/
def candidates (id : TokenId) (coins : List TokenCoin) : List TokenCoin :=
  (coins.filter (·.tokenId = id)).mergeSort fun a b => a.quantity ≤ b.quantity

/-- The shortest prefix that holds at least `target`, or all coins if they do not. -/
def takeReaching (target : Nat) : List TokenCoin → List TokenCoin
  | [] => []
  | c :: coins =>
    if target = 0 then [] else c :: takeReaching (target - c.quantity.toNat) coins

/-- The tokens that coins hold together. -/
def heldBy (coins : List TokenCoin) : Nat := totalQuantity (coins.map TokenCoin.quantity)

/-! ## Both passes -/

/-- Selects inputs that send a quantity of the token to each of several recipients. -/
def select (fees : Fees) (id : TokenId) (requested : List UInt64) (tokenCoins : List TokenCoin)
    (plainCoins : List Coin) : Except Error Selection :=
  if requested.isEmpty then .error (.selection .emptyRequest)
  else
    match sumQuantities? requested with
    | none => .error (.selection .quantityOverflow)
    | some target => do
      let dust ← checked (fees.dustLimit.mul? (Satoshi.ofCount requested.length))
      let picked := takeReaching target.toNat (candidates id tokenCoins)
      let tokenInputs := picked.map TokenCoin.coin
      let worth ← checked (fees.addInputs? 0 tokenInputs)
      let held := heldBy picked
      if held < target.toNat then
        .error (.selection (.insufficientTokens id target (clampQuantity held)))
      else
        let extra := clampQuantity (held - target.toNat)
        let dust ← if 0 < extra then checked (dust.add? fees.dustLimit) else .ok dust
        let fee ← checked (fees.sendFee? requested.length)
        let required ← checked (dust.add? fee)
        let funding ← checked (Funding.select? fees plainCoins worth required)
        let change ← checked (do (← funding.total.sub? dust).sub? fee)
        if change < 0 then
          .error (.selection (.insufficientCurrency required funding.total))
        else
          return {
            tokenId := id
            quantities := if 0 < extra then [target, extra] else [target]
            change
            fee
            dust
            inputs := tokenInputs ++ funding.inputs
            tokenInputCount := tokenInputs.length
            inputTokens := clampQuantity held }

/-! ## The unit that a child burns -/

/-- The first coin that holds exactly one unit of the parent. -/
def selectParent (parent : TokenId) (coins : List TokenCoin) : Except Error TokenCoin :=
  match coins.find? fun c => c.tokenId = parent ∧ c.quantity = 1 with
  | some c => .ok c
  | none => .error (.selection (.missingParent parent))

end Selection
end SimpleLedger
