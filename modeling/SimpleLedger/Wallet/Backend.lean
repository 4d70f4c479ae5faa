import SimpleLedger.Wallet.Procedure

/-!
# A backend in memory

The backend holds the coins of the wallet and what it knows about tokens.  It answers calls, and
keeps a log of them.  A transaction that it broadcasts takes effect at once: the coins that it
spends are gone, and the transaction is recorded.  Coins for its own outputs do not appear.

One call at a time can be made to fail.  A failing call is logged and has no other effect.
-/

set_option autoImplicit false

namespace SimpleLedger
namespace Wallet

/-- A coin of the wallet and whether its transaction still waits to be confirmed. -/
structure Holding (α : Type) where
  coin : α
  unconfirmed : Bool
  deriving DecidableEq

/-- A call that fails, and the reason that it gives. -/
structure Fault where
  call : CallName
  reason : String
  deriving DecidableEq

/-- All that a backend holds and knows, how it behaves, and what it was asked. -/
structure Backend where
  /-- What is known about tokens, by the identifier to look up.  Later entries count. -/
  descriptors : List (TokenId × Descriptor)
  tokenCoins : List (Holding TokenCoin)
  plainCoins : List (Holding Coin)
  tokenChange : Address
  change : Address
  /-- Whether a call for the coins of a token answers with those of all tokens. -/
  unfiltered : Bool
  fault : Option Fault
  /-- The transactions that were broadcast. -/
  recorded : List Draft
  log : List Call

namespace Backend

variable {α : Type}

/-! ## Looking up -/

/-- What is known about a token. -/
def descriptor? (b : Backend) (id : TokenId) : Option Descriptor :=
  b.descriptors.reverse.lookup id

/-- The coins that may be spent. -/
def spendable (unconfirmed : Bool) (holdings : List (Holding α)) : List α :=
  (holdings.filter fun h => unconfirmed || !h.unconfirmed).map Holding.coin

/-- The coins that a call for those of a token is answered with. -/
def tokenCoinsOf (b : Backend) (id : TokenId) (unconfirmed : Bool) : List TokenCoin :=
  (spendable unconfirmed b.tokenCoins).filter fun c => b.unfiltered || c.tokenId = id

/-! ## Broadcasting -/

/-- Records a transaction and removes the coins that it spends. -/
def record (b : Backend) (draft : Draft) : Backend :=
  let spent := draft.inputs.map Coin.outpoint
  { b with
    tokenCoins := b.tokenCoins.filter fun h => !spent.contains h.coin.coin.outpoint
    plainCoins := b.plainCoins.filter fun h => !spent.contains h.coin.outpoint
    recorded := b.recorded ++ [draft] }

/-- The name of the last recorded transaction. -/
def lastTxId (b : Backend) : TxId := s!"tx{b.recorded.length}"

/-! ## Answering -/

/-- What a call that does not fail answers and does. -/
def perform (b : Backend) : (c : Call) → c.Answer × Backend
  | .tokenDescriptor id => (b.descriptor? id, b)
  | .tokenCoins id unconfirmed => (b.tokenCoinsOf id unconfirmed, b)
  | .plainCoins unconfirmed => (spendable unconfirmed b.plainCoins, b)
  | .tokenChangeAddress => (b.tokenChange, b)
  | .changeAddress => (b.change, b)
  | .broadcast draft => ((b.record draft).lastTxId, b.record draft)

/-- Logs a call and answers it. -/
def answer (b : Backend) (c : Call) : Except WalletError c.Answer × Backend :=
  let b := { b with log := b.log ++ [c] }
  match b.fault.filter fun f => f.call = c.name with
  | some f => (.error (.backend f.reason), b)
  | none => ((b.perform c).map .ok id)

end Backend

/-- Runs a procedure on its own, where nobody else takes a step. -/
def Procedure.run {α : Type} : Procedure α → Backend → α × Backend
  | .done a, b => (a, b)
  | .call c next, b =>
    let (r, b) := b.answer c
    (next r).run b
  | .pause next, b | .lock next, b | .unlock next, b => next.run b

end Wallet
end SimpleLedger
