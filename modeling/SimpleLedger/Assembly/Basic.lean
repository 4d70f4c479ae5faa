import SimpleLedger.Draft
import SimpleLedger.Fees

/-!
# Assembled transactions

A transaction that carries a message has the message as its first output.  Outputs with tokens
come next, in the order of the quantities in the message, and change in currency comes last.  Less
change than the dust limit is not paid out and adds to the fee.
-/

set_option autoImplicit false

namespace SimpleLedger

/-- An unsigned transaction, the script of its message, and what it does. -/
structure Assembled (Summary : Type) where
  draft : Draft
  message : Bytes
  summary : Summary

/-- Where tokens and currency that are left over go. -/
structure ChangeAddresses where
  tokens : Address
  currency : Address
  deriving DecidableEq

/-- One address for all that is left over. -/
def ChangeAddresses.single (address : Address) : ChangeAddresses := ⟨address, address⟩

namespace Assembly

/-- The change that is paid out. -/
def paidChange (fees : Fees) (change : Satoshi) : Satoshi :=
  if fees.dustLimit ≤ change then change else 0

/-- The output for change, if there is enough of it. -/
def changeOutputs (fees : Fees) (change : Satoshi) (address : Address) :
    List Output :=
  if fees.dustLimit ≤ change then [.payTo address change] else []

/-- The outputs of a transaction: its message, one output for each address that gets tokens, and
the change in currency. -/
def outputs (fees : Fees) (message : Bytes) (receivers : List Address) (change : Satoshi)
    (address : Address) : List Output :=
  .ofMessage message :: receivers.map (.payTo · fees.dustLimit) ++
    changeOutputs fees change address

end Assembly
end SimpleLedger
