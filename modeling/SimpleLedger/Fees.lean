import SimpleLedger.Satoshi

/-!
# Fees

Fees are estimated from the number of inputs and outputs of a transaction and the length of its
message.  The defaults suit one satoshi a byte and outputs that pay to the hash of a key.

Every function has no value where the arithmetic leaves the range of `Satoshi`.
-/

set_option autoImplicit false

namespace SimpleLedger

/-- What the parts of a transaction are estimated to cost. -/
structure Fees where
  /-- What an output that carries tokens is worth. -/
  dustLimit : Satoshi := 546
  perInput : Satoshi := 148
  perOutput : Satoshi := 34
  /-- The length of the output with a message that sends nothing. -/
  messageBase : Satoshi := 55
  /-- What each quantity adds to that length. -/
  perQuantity : Satoshi := 9
  /-- The margin per output that makes cheap transactions spread. -/
  relayMargin : Satoshi := 50
  deriving DecidableEq

namespace Fees

/-- The fee for `n` outputs. -/
def outputFee? (fees : Fees) (n : Nat) : Option Satoshi :=
  (Satoshi.ofCount n).mul? fees.perOutput

/-- The length of the output that sends `n` quantities. -/
def messageSize? (fees : Fees) (n : Nat) : Option Satoshi := do
  fees.messageBase.add? (← (Satoshi.ofCount n).mul? fees.perQuantity)

/-- The relay margin of `n` outputs and the message. -/
def relayFee? (fees : Fees) (n : Nat) : Option Satoshi := do
  (← (Satoshi.ofCount n).add? 1).mul? fees.relayMargin

/-- The fee for paying `n` recipients, apart from the inputs.  One output more than the
recipients is counted, for change. -/
def sendFee? (fees : Fees) (n : Nat) : Option Satoshi := do
  let outputs ← fees.outputFee? (← Satoshi.succCount? n)
  let sum ← outputs.add? (← fees.messageSize? n)
  sum.add? (← fees.relayFee? n)

/-- The fee for creating a token with a message of `length` bytes and `n` outputs that carry
tokens or the right to mint, apart from the inputs. -/
def genesisFee? (fees : Fees) (length n : Nat) : Option Satoshi := do
  let outputs ← fees.outputFee? (← Satoshi.succCount? n)
  let sum ← outputs.add? (Satoshi.ofCount length)
  sum.add? (← fees.relayFee? n)

end Fees
end SimpleLedger
