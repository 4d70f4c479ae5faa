import SimpleLedger.Config
import SimpleLedger.Json.Reader
import SimpleLedger.Wire.Token

/-!
# Fees and configuration in JSON

Whatever is missing has its default, apart from the network.
-/

set_option autoImplicit false

namespace SimpleLedger

/-- An amount as a number. -/
def Satoshi.toJson (s : Satoshi) : Json := .int s.toInt

namespace Fees

/-- Fees as an object with a member for each part. -/
def toJson (f : Fees) : Json :=
  .object [("dustLimit", f.dustLimit.toJson), ("inputFee", f.perInput.toJson),
    ("outputFee", f.perOutput.toJson), ("opReturnBaseBytes", f.messageBase.toJson),
    ("quantityBytes", f.perQuantity.toJson), ("propagationFeePerOutput", f.relayMargin.toJson)]

/-- The fees that a record gives. -/
def ofJson? (j : Json) : Option Fees := do
  let r ← j.record? ["dustLimit", "inputFee", "outputFee", "opReturnBaseBytes", "quantityBytes",
    "propagationFeePerOutput"]
  let standard : Fees := {}
  return {
    dustLimit := ← r.withDefault "dustLimit" Json.satoshi? standard.dustLimit
    perInput := ← r.withDefault "inputFee" Json.satoshi? standard.perInput
    perOutput := ← r.withDefault "outputFee" Json.satoshi? standard.perOutput
    messageBase := ← r.withDefault "opReturnBaseBytes" Json.satoshi? standard.messageBase
    perQuantity := ← r.withDefault "quantityBytes" Json.satoshi? standard.perQuantity
    relayMargin := ← r.withDefault "propagationFeePerOutput" Json.satoshi? standard.relayMargin }

end Fees

namespace Config

/-- A configuration as an object with nothing left out. -/
def toJson (c : Config) : Json :=
  .object [("network", c.network.toJson), ("fees", c.fees.toJson),
    ("feePerKb", c.feePerKb.toJson), ("allowUnconfirmed", .bool c.allowUnconfirmed)]

/-- The configuration that a record gives. -/
def ofJson? (j : Json) : Option Config := do
  let r ← j.record? ["network", "fees", "feePerKb", "allowUnconfirmed"]
  let standard : Config := {}
  return {
    network := ← r.required "network" Network.ofJson?
    fees := ← r.withDefault "fees" Fees.ofJson? standard.fees
    feePerKb := ← r.withDefault "feePerKb" Json.satoshi? standard.feePerKb
    allowUnconfirmed := ← r.withDefault "allowUnconfirmed" Json.bool? standard.allowUnconfirmed }

/-- The configuration that a document holds. -/
def parse? (document : String) : Option Config := (Json.parse? document).bind ofJson?

end Config
end SimpleLedger
