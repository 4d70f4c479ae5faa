import SimpleLedger.Coin

/-!
# Selected inputs

What the selection of inputs for a SEND results in, and how to read it.
-/

set_option autoImplicit false

namespace SimpleLedger

/-- The inputs that were selected for a SEND, and what becomes of them. -/
structure Selection where
  tokenId : TokenId
  /-- The quantity asked for, and after it the change if there is any. -/
  quantities : List UInt64
  /-- What is left of the currency after the fee and the outputs with tokens. -/
  change : Satoshi
  fee : Satoshi
  /-- What the outputs with tokens are worth together. -/
  dust : Satoshi
  /-- Inputs with tokens come first. -/
  inputs : List Coin
  tokenInputCount : Nat
  /-- The tokens that the inputs hold. -/
  inputTokens : UInt64
  deriving DecidableEq

namespace Selection

/-- The quantity that was asked for, zero if none is stored. -/
def requested (s : Selection) : UInt64 := s.quantities.head?.getD 0

/-- The quantity that comes back, zero if none is stored. -/
def tokenChange (s : Selection) : UInt64 := s.quantities[1]?.getD 0

/-- Whether there is a second quantity, be it zero. -/
def hasTokenChange (s : Selection) : Bool := s.quantities.length == 2

/-- The inputs with tokens. -/
def tokenInputs (s : Selection) : List Coin := s.inputs.take s.tokenInputCount

/-- The inputs that do nothing but pay. -/
def plainInputs (s : Selection) : List Coin := s.inputs.drop s.tokenInputCount

end Selection
end SimpleLedger
