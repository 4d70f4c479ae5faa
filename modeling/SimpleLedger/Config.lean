import SimpleLedger.Fees
import SimpleLedger.Network

/-!
# Wallet configuration
-/

set_option autoImplicit false

namespace SimpleLedger

/-- What a wallet is set up with: where it works, what transactions cost, and what it may spend. -/
structure Config where
  network : Network := .mainnet
  fees : Fees := {}
  /-- The rate that is handed to the signer. -/
  feePerKb : Satoshi := 1000
  /-- Whether outputs that are not confirmed yet may be spent. -/
  allowUnconfirmed : Bool := true
  deriving DecidableEq

end SimpleLedger
