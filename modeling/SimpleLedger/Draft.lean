import SimpleLedger.Coin
import SimpleLedger.Network

/-!
# Unsigned transactions

The outputs of a draft are in the order in which they will stand in the transaction: a message
refers to them by position, so nothing reorders them.
-/

set_option autoImplicit false

namespace SimpleLedger

/-- An output of a transaction: the message, or a payment. -/
inductive Output where
  /-- An output without value, whose script is given in hexadecimal. -/
  | message (script : String)
  | payTo (address : Address) (value : Satoshi)
  deriving DecidableEq

namespace Output

/-- The output that carries a script. -/
def ofMessage (script : Bytes) : Output := .message (Hex.encode script)

/-- What an output is worth.  A message is worth nothing. -/
def value : Output → Satoshi
  | .message _ => 0
  | .payTo _ value => value

/-- Whom an output pays. -/
def address? : Output → Option Address
  | .message _ => none
  | .payTo address _ => some address

end Output

/-- A transaction that nobody has signed: the coins that it spends, and what it pays. -/
structure Draft where
  inputs : List Coin
  outputs : List Output
  deriving DecidableEq

namespace Draft

/-- What the inputs are worth together, if every partial sum fits. -/
def inputTotal? (d : Draft) : Option Satoshi := Satoshi.sum? (d.inputs.map Coin.value)

/-- What the outputs are worth together, if every partial sum fits. -/
def outputTotal? (d : Draft) : Option Satoshi := Satoshi.sum? (d.outputs.map Output.value)

/-- What is left to whoever confirms the transaction. -/
def impliedFee? (d : Draft) : Option Satoshi := do
  (← d.inputTotal?).sub? (← d.outputTotal?)

/-- The script of the first output, if that is a message in proper hexadecimal. -/
def messageScript? (d : Draft) : Option Bytes :=
  match d.outputs with
  | .message script :: _ => (Hex.decode script).toOption
  | _ => none

end Draft
end SimpleLedger
