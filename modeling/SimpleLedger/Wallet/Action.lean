import SimpleLedger.Assembly.Genesis
import SimpleLedger.Assembly.Send
import SimpleLedger.Config
import SimpleLedger.Wallet.Procedure

/-!
# Wallet actions

The five things that a wallet does.  Each gathers coins and addresses from the backend, builds a
transaction and hands it over.  From the first look at the coins until the transaction is handed
over it holds the lock of the wallet, so that no other action picks the same coins.

Addresses that belong to the other network are refused before any coin is looked at.
-/

set_option autoImplicit false

namespace SimpleLedger
namespace Wallet

/-- What a wallet can be asked to do. -/
inductive Action where
  /-- Sends a decimal amount of a token. -/
  | send (token : TokenId) (amount : String) (recipient : Address)
  | sendNft (token : TokenId) (recipient : Address)
  /-- Sends quantities to several recipients at once. -/
  | sendMany (token : TokenId) (recipients : List (Address × UInt64))
  /-- Creates a fungible token or a group. -/
  | create (tokenType : TokenType) (genesis : Genesis) (receiver : Address)
    (batonReceiver : Option Address)
  /-- Creates a unique child of a group. -/
  | createChild (parent : TokenId) (ticker name documentUrl : String) (receiver : Address)
  deriving DecidableEq

/-! ## Checks -/

/-- Whether an address may belong to the network: its prefix does not name another one. -/
def onNetwork (network : Network) (a : Address) : Bool :=
  match a.network? with
  | some n => n = network
  | none => true

/-- Refuses the first address that belongs to another network. -/
def checkNetwork (config : Config) (addresses : List Address) : Act Unit :=
  match addresses.find? fun a => !onNetwork config.network a with
  | some a => .fail (.networkMismatch a config.network)
  | none => pure ()

/-- What the backend knows about a token.  It is an error if it knows nothing. -/
def descriptor (id : TokenId) : Act Descriptor := do
  match ← Act.ask (.tokenDescriptor id) with
  | some d => return d
  | none => .fail (.unknownToken id)

/-! ## Paying -/

/-- The transaction that pays the recipients. -/
def buildPayment (fees : Fees) (token : Descriptor) (recipients : List (Address × UInt64))
    (tokenCoins : List TokenCoin) (plainCoins : List Coin) (change : ChangeAddresses) :
    Except Error (Assembled SendSummary) := do
  let tokenType := token.kind.tokenType
  let selection ←
    Selection.select fees token.tokenId (recipients.map Prod.snd) tokenCoins plainCoins
  match recipients with
  | [(recipient, _)] => Assembly.send fees selection tokenType recipient change
  | _ => Assembly.sendMany fees selection tokenType recipients change

/-- Pays the recipients in one transaction.  Their addresses are checked first, and the lock is held
from the first look at the coins until the draft is handed over. -/
def pay (config : Config) (token : Descriptor) (recipients : List (Address × UInt64)) :
    Act TxId := do
  if recipients.isEmpty then .fail (.core (.assembly .noRecipients))
  else
    checkNetwork config (recipients.map Prod.fst)
    Act.locked do
      let tokenCoins ← Act.ask (.tokenCoins token.tokenId config.allowUnconfirmed)
      let plainCoins ← Act.ask (.plainCoins config.allowUnconfirmed)
      let tokens ← Act.ask .tokenChangeAddress
      let currency ← Act.ask .changeAddress
      let built ← Act.build
        (buildPayment config.fees token recipients tokenCoins plainCoins ⟨tokens, currency⟩)
      Act.broadcast built.draft

/-! ## Actions -/

/-- Sends a decimal amount of a token. -/
def send (config : Config) (id : TokenId) (amount : String) (recipient : Address) :
    Act TxId := do
  let token ← descriptor id
  match token.toRaw amount with
  | .error e => .fail (.core (.amount e))
  | .ok raw => pay config token [(recipient, raw)]

/-- Sends the one unit of a unique child. -/
def sendNft (config : Config) (id : TokenId) (recipient : Address) : Act TxId := do
  let token ← descriptor id
  if token.isNft then pay config token [(recipient, 1)] else .fail (.notAnNft id)

/-- Sends quantities of a token to several recipients at once. -/
def sendMany (config : Config) (id : TokenId) (recipients : List (Address × UInt64)) :
    Act TxId := do
  let token ← descriptor id
  pay config token recipients

/-- Creates a fungible token or a group. -/
def create (config : Config) (tokenType : TokenType) (g : Genesis) (receiver : Address)
    (batonReceiver : Option Address) : Act TxId := do
  checkNetwork config (receiver :: batonReceiver.toList)
  Act.locked do
    let plainCoins ← Act.ask (.plainCoins config.allowUnconfirmed)
    let change ← Act.ask .changeAddress
    let built ← Act.build
      (Assembly.genesis config.fees tokenType g plainCoins receiver batonReceiver change)
    Act.broadcast built.draft

/-- Creates a unique child and burns a unit of its parent. -/
def createChild (config : Config) (parent : TokenId) (ticker name documentUrl : String)
    (receiver : Address) : Act TxId := do
  checkNetwork config [receiver]
  Act.locked do
    let parentCoins ← Act.ask (.tokenCoins parent config.allowUnconfirmed)
    let plainCoins ← Act.ask (.plainCoins config.allowUnconfirmed)
    let change ← Act.ask .changeAddress
    let built ← Act.build
      (Assembly.childGenesis config.fees parent parentCoins plainCoins ticker name documentUrl
        receiver change)
    Act.broadcast built.draft

/-- How an action ends: with the transaction that it broadcast, or an error. -/
abbrev Outcome := Except WalletError TxId

/-- The steps of an action, up to its outcome. -/
def Action.procedure (config : Config) : Action → Procedure Outcome
  | .send id amount recipient => (Wallet.send config id amount recipient).run
  | .sendNft id recipient => (Wallet.sendNft config id recipient).run
  | .sendMany id recipients => (Wallet.sendMany config id recipients).run
  | .create tokenType g receiver batonReceiver =>
    (Wallet.create config tokenType g receiver batonReceiver).run
  | .createChild parent ticker name documentUrl receiver =>
    (Wallet.createChild config parent ticker name documentUrl receiver).run

end Wallet
end SimpleLedger
