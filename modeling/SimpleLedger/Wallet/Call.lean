import SimpleLedger.Draft
import SimpleLedger.Token.Descriptor

/-!
# What a wallet asks of its backend

A wallet neither holds keys nor watches the ledger.  It asks a backend, by one of six calls, and
every call has its own type of answer.
-/

set_option autoImplicit false

namespace SimpleLedger
namespace Wallet

/-- The calls of a backend, without what they are about. -/
inductive CallName where
  | tokenDescriptor
  | tokenCoins
  | plainCoins
  | tokenChangeAddress
  | changeAddress
  | broadcast
  deriving DecidableEq

namespace CallName

/-- The name of a call in logs. -/
def text : CallName → String
  | .tokenDescriptor => "token_descriptor"
  | .tokenCoins => "token_utxos"
  | .plainCoins => "plain_utxos"
  | .tokenChangeAddress => "token_change_address"
  | .changeAddress => "change_address"
  | .broadcast => "sign_and_broadcast"

/-- All calls, in the order in which names are looked up. -/
def all : List CallName :=
  [.tokenDescriptor, .tokenCoins, .plainCoins, .tokenChangeAddress, .changeAddress, .broadcast]

/-- The call with this name. -/
def ofText? (s : String) : Option CallName := all.find? fun n => n.text == s

end CallName

/-- A call and what it is about. -/
inductive Call where
  | tokenDescriptor (id : TokenId)
  /-- The coins that carry a token. -/
  | tokenCoins (id : TokenId) (unconfirmed : Bool)
  /-- The coins that carry no token. -/
  | plainCoins (unconfirmed : Bool)
  | tokenChangeAddress
  | changeAddress
  /-- Signs a draft and sends it to the ledger. -/
  | broadcast (draft : Draft)
  deriving DecidableEq

namespace Call

/-- Which call it is. -/
def name : Call → CallName
  | .tokenDescriptor _ => .tokenDescriptor
  | .tokenCoins .. => .tokenCoins
  | .plainCoins _ => .plainCoins
  | .tokenChangeAddress => .tokenChangeAddress
  | .changeAddress => .changeAddress
  | .broadcast _ => .broadcast

/-- The type of what a call is answered with. -/
abbrev Answer : Call → Type
  | .tokenDescriptor _ => Option Descriptor
  | .tokenCoins .. => List TokenCoin
  | .plainCoins _ => List Coin
  | .tokenChangeAddress | .changeAddress => Address
  | .broadcast _ => TxId

/-- How a call is logged. -/
def text (c : Call) : String :=
  let arguments :=
    match c with
    | .tokenDescriptor id => id.toHex
    | .tokenCoins id unconfirmed => s!"{id},{unconfirmed}"
    | .plainCoins unconfirmed => toString unconfirmed
    | .tokenChangeAddress | .changeAddress | .broadcast _ => ""
  s!"{c.name.text}({arguments})"

end Call
end Wallet
end SimpleLedger
