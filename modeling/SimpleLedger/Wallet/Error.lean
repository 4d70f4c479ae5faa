import SimpleLedger.Error
import SimpleLedger.Network

/-!
# Errors of wallet actions
-/

set_option autoImplicit false

namespace SimpleLedger

/-- Why an action fails. -/
inductive WalletError where
  | core (cause : Error)
  /-- The backend refused a call. -/
  | backend (reason : String)
  | unknownToken (id : TokenId)
  | notAnNft (id : TokenId)
  | networkMismatch (address : Address) (expected : Network)
  /-- Building the transaction broke off. -/
  | task
  deriving DecidableEq

namespace WalletError

/-- What an error of building a transaction is to the wallet. -/
def ofBuild : Error → WalletError
  | .overflow => .task
  | e => .core e

/-- The machine-readable name of the error, whatever its data. -/
def code : WalletError → String
  | .core cause => cause.code
  | .backend _ => "backend"
  | .unknownToken _ => "unknown_token"
  | .notAnNft _ => "not_an_nft"
  | .networkMismatch .. => "network_mismatch"
  | .task => "task"

/-- The error as a sentence for people. -/
def text : WalletError → String
  | .core cause => cause.text
  | .backend reason => s!"Wallet backend error: {reason}"
  | .unknownToken id => s!"Unknown token: {id}"
  | .notAnNft id => s!"Token {id} is not an NFT"
  | .networkMismatch address expected => s!"Address {address.text} is not on {expected.name}"
  | .task => "Selection task failed"

end WalletError
end SimpleLedger
