import SimpleLedger.Assembly.Basic
import SimpleLedger.Message.Encode
import SimpleLedger.Selection.Tokens

/-!
# Assembling a GENESIS

`Assembly.genesis` creates a fungible token or a group.  The supply goes to the first output after
the message, and the right to mint, if there is one, to the second.  `Assembly.childGenesis`
creates a unique child: its first input is the unit of the group that it burns.
-/

set_option autoImplicit false

namespace SimpleLedger

/-- What a transaction that creates a token comes to. -/
structure GenesisSummary where
  tokenType : TokenType
  ticker : String
  initialQuantity : UInt64
  mintBatonVout : Option UInt8
  fee : Satoshi
  /-- The change in currency that is paid out. -/
  change : Satoshi
  /-- The outpoint of the unit that a child burns. -/
  burnedParent : Option String
  deriving DecidableEq

namespace Assembly

/-- The transaction that carries the message and pays the receivers, funded by the parent, if
there is one, and plain coins. -/
def create (fees : Fees) (tokenType : TokenType) (g : Genesis) (message : Bytes)
    (parent : Option Coin) (plainCoins : List Coin) (receivers : List Address)
    (change : Address) : Except Error (Assembled GenesisSummary) := do
  let dust ← checked (fees.dustLimit.mul? (Satoshi.ofCount receivers.length))
  let fee ← checked (fees.genesisFee? message.length receivers.length)
  let required ← checked (dust.add? fee)
  let already ←
    match parent with
    | some c => checked (c.value.sub? fees.perInput)
    | none => .ok 0
  let funding ← checked (Funding.select? fees plainCoins already required)
  let leftover ← checked (funding.total.sub? required)
  if leftover < 0 then .error (.selection (.insufficientCurrency required funding.total))
  else
    return {
      draft := ⟨parent.toList ++ funding.inputs, outputs fees message receivers leftover change⟩
      message
      summary :=
        { tokenType
          ticker := g.ticker
          initialQuantity := g.initialQuantity
          mintBatonVout := g.mintBatonVout
          fee
          change := paidChange fees leftover
          burnedParent := parent.map Coin.outpoint } }

/-- Who gets the right to mint decides where it goes, whatever the GENESIS asks for. -/
def genesis (fees : Fees) (tokenType : TokenType) (g : Genesis) (plainCoins : List Coin)
    (receiver : Address) (batonReceiver : Option Address) (change : Address) :
    Except Error (Assembled GenesisSummary) :=
  if tokenType = .nftChild then
    .error (.message (.unsupportedOperation tokenType .genesisWithoutParent))
  else
    let g := { g with mintBatonVout := batonReceiver.map fun _ => 2 }
    match Message.encodeGenesis tokenType g with
    | .error e => .error (.message e)
    | .ok message =>
      create fees tokenType g message none plainCoins (receiver :: batonReceiver.toList) change

/-- Creates a unique child and burns a unit of its parent.  The unit is looked for before the
message is written. -/
def childGenesis (fees : Fees) (parent : TokenId) (parentCoins : List TokenCoin)
    (plainCoins : List Coin) (ticker name documentUrl : String) (receiver change : Address) :
    Except Error (Assembled GenesisSummary) := do
  let burned ← Selection.selectParent parent parentCoins
  match Message.encodeChildGenesis ticker name documentUrl with
  | .error e => .error (.message e)
  | .ok message =>
    create fees .nftChild (Genesis.child ticker name documentUrl) message (some burned.coin)
      plainCoins [receiver] change

end Assembly
end SimpleLedger
