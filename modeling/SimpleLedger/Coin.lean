import SimpleLedger.Satoshi
import SimpleLedger.TokenId

/-!
# Spendable outputs

A `Coin` is an output of an earlier transaction that can be spent, a `TokenCoin` one that carries
a quantity of a token as well.
-/

set_option autoImplicit false

namespace SimpleLedger

/-- The name of a transaction.  What it looks like is up to the ledger. -/
abbrev TxId := String

/-- An output of an earlier transaction that can be spent. -/
structure Coin where
  txid : TxId
  vout : UInt32
  value : Satoshi
  /-- The script that locks the output, in hexadecimal.  Only the signer looks at it. -/
  lockingScript : String
  deriving DecidableEq

/-- The text by which a transaction refers to the output it spends. -/
def Coin.outpoint (c : Coin) : String := s!"{c.txid}:{c.vout}"

/-- A coin that holds a quantity of a token as well. -/
structure TokenCoin where
  tokenId : TokenId
  quantity : UInt64
  coin : Coin
  deriving DecidableEq

end SimpleLedger
