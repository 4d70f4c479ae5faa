import SimpleLedger.Satoshi

/-!
# Networks and addresses

An address is carried as text.  Its checksum belongs to the signer; all that is read off it here
is the part before the first colon, which tells the network apart and the token form from the
plain form.
-/

set_option autoImplicit false

namespace SimpleLedger

/-- The ledgers that a wallet may work on. -/
inductive Network where
  | mainnet
  | testnet
  deriving DecidableEq

namespace Network

/-- The name of a network in errors and documents. -/
def name : Network → String
  | .mainnet => "mainnet"
  | .testnet => "testnet"

/-- All networks, in the order in which names and prefixes are looked up. -/
def all : List Network := [.mainnet, .testnet]

/-- The network with this name. -/
def ofName? (s : String) : Option Network := all.find? fun n => n.name == s

/-- The prefix of plain addresses. -/
def cashPrefix : Network → String
  | .mainnet => "bitcoincash"
  | .testnet => "bchtest"

/-- The prefix of token addresses. -/
def tokenPrefix : Network → String
  | .mainnet => "simpleledger"
  | .testnet => "slptest"

/-- The least value at which an output that holds no message is relayed. -/
def dustLimit : Network → Satoshi
  | .mainnet | .testnet => 546

end Network

/-- An address as it is written, with or without a prefix. -/
structure Address where
  text : String
  deriving DecidableEq

namespace Address

/-- The text before the first colon, or all of it if there is none. -/
def head (a : Address) : String := String.ofList (a.text.toList.takeWhile (· ≠ ':'))

/-- The network whose prefix the address carries. -/
def network? (a : Address) : Option Network :=
  Network.all.find? fun n => a.head == n.cashPrefix || a.head == n.tokenPrefix

/-- Whether this is an address in token form. -/
def isTokenForm (a : Address) : Bool := Network.all.any fun n => a.head == n.tokenPrefix

end Address
end SimpleLedger
