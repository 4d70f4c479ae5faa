import SimpleLedger.Draft
import SimpleLedger.Wire.Config

/-!
# Coins and drafts in JSON
-/

set_option autoImplicit false

namespace SimpleLedger

namespace Coin

/-- A coin as an object. -/
def toJson (c : Coin) : Json :=
  .object [("txid", .text c.txid), ("vout", .nat c.vout.toNat), ("value", c.value.toJson),
    ("scriptPubkey", .text c.lockingScript)]

/-- The locking script may be missing. -/
def ofJson? (j : Json) : Option Coin := do
  let r ← j.record? ["txid", "vout", "value", "scriptPubkey"]
  return {
    txid := ← r.required "txid" Json.text?
    vout := ← r.required "vout" Json.uint32?
    value := ← r.required "value" Json.satoshi?
    lockingScript := ← r.withDefault "scriptPubkey" Json.text? "" }

end Coin

namespace TokenCoin

/-- A coin with tokens as an object around the coin. -/
def toJson (c : TokenCoin) : Json :=
  .object [("tokenId", c.tokenId.toJson), ("amountRaw", .nat c.quantity.toNat),
    ("output", c.coin.toJson)]

/-- The coin with tokens that a record gives. -/
def ofJson? (j : Json) : Option TokenCoin := do
  let r ← j.record? ["tokenId", "amountRaw", "output"]
  return {
    tokenId := ← r.required "tokenId" TokenId.ofJson?
    quantity := ← r.required "amountRaw" Json.uint64?
    coin := ← r.required "output" Coin.ofJson? }

end TokenCoin

namespace Output

/-- An output as an object that says which sort it is. -/
def toJson : Output → Json
  | .message script => .object [("type", .text "opReturn"), ("script", .text script)]
  | .payTo address value =>
    .object [("type", .text "payTo"), ("address", address.toJson), ("value", value.toJson)]

/-- The output that a choice gives, inside `nesting` other values. -/
def ofJson? (nesting : Nat) (j : Json) : Option Output := do
  let (tag, data) ← j.tagged? nesting
  if tag = "opReturn" then do
    let r ← data.record? ["script"]
    return .message (← r.required "script" Json.text?)
  else if tag = "payTo" then do
    let r ← data.record? ["address", "value"]
    return .payTo (← r.required "address" Address.ofJson?)
      (← r.required "value" Json.satoshi?)
  else none

end Output

namespace Draft

/-- A draft as an object, inputs and outputs in their order. -/
def toJson (d : Draft) : Json :=
  .object [("inputs", .list Coin.toJson d.inputs), ("outputs", .list Output.toJson d.outputs)]

/-- The draft that a record gives. -/
def ofJson? (j : Json) : Option Draft := do
  let r ← j.record? ["inputs", "outputs"]
  return {
    inputs := ← r.required "inputs" (·.list? Coin.ofJson?)
    outputs := ← r.required "outputs" (·.list? (Output.ofJson? 2)) }

end Draft
end SimpleLedger
