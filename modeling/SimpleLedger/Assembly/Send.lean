import SimpleLedger.Assembly.Basic
import SimpleLedger.Message.Encode
import SimpleLedger.Selection.Tokens

/-!
# Assembling a SEND

`Assembly.send` pays one recipient all that a selection was made for; `Assembly.sendMany` pays
several, whose quantities have to add up to it.
-/

set_option autoImplicit false

namespace SimpleLedger

/-- What a transaction that moves tokens comes to. -/
structure SendSummary where
  tokenId : TokenId
  tokenType : TokenType
  quantities : List UInt64
  tokenChange : UInt64
  fee : Satoshi
  /-- The change in currency that is paid out. -/
  change : Satoshi
  inputCount : Nat
  deriving DecidableEq

namespace Assembly

/-- The transaction that spends the selected inputs. -/
def spend (fees : Fees) (s : Selection) (tokenType : TokenType)
    (recipients : List (Address × UInt64)) (message : Bytes) (change : ChangeAddresses) :
    Assembled SendSummary :=
  let receivers := recipients.map Prod.fst ++ if s.hasTokenChange then [change.tokens] else []
  { draft := ⟨s.inputs, outputs fees message receivers s.change change.currency⟩
    message
    summary :=
      { tokenId := s.tokenId
        tokenType
        quantities := recipients.map Prod.snd
        tokenChange := s.tokenChange
        fee := s.fee
        change := paidChange fees s.change
        inputCount := s.inputs.length } }

/-- Pays one recipient all that the selection was made for.  Nothing is checked but that the message
can be written. -/
def send (fees : Fees) (s : Selection) (tokenType : TokenType) (recipient : Address)
    (change : ChangeAddresses) : Except Error (Assembled SendSummary) :=
  match Message.encodeSend tokenType s.tokenId s.quantities with
  | .error e => .error (.message e)
  | .ok message => .ok (spend fees s tokenType [(recipient, s.requested)] message change)

/-- Pays the recipients in their order. -/
def sendMany (fees : Fees) (s : Selection) (tokenType : TokenType)
    (recipients : List (Address × UInt64)) (change : ChangeAddresses) :
    Except Error (Assembled SendSummary) :=
  if recipients.isEmpty then .error (.assembly .noRecipients)
  else if s.quantities.isEmpty then .error (.selection .emptyRequest)
  else
    let amounts := recipients.map Prod.snd
    match sumQuantities? amounts with
    | none => .error (.selection .quantityOverflow)
    | some total =>
      let count := recipients.length + if s.hasTokenChange then 1 else 0
      if total ≠ s.requested then .error (.assembly (.amountMismatch s.requested total))
      else if Message.maxQuantities < count then .error (.assembly (.tooManyOutputs count))
      else
        match Message.encodePayments tokenType s.tokenId amounts (some s.tokenChange) with
        | .error e => .error (.message e)
        | .ok message => .ok (spend fees s tokenType recipients message change)

end Assembly
end SimpleLedger
