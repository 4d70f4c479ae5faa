import SimpleLedger.Coin
import SimpleLedger.Message.Basic

/-!
# Errors of building transactions

Each part of the library has its own type of error.  Functions that join several parts use
`Error`, which wraps them and adds one cause of its own: an amount that left the range of
`Satoshi`.
-/

set_option autoImplicit false

namespace SimpleLedger

/-! ## Selecting inputs -/

/-- Why the inputs of a transaction cannot be selected. -/
inductive SelectionError where
  | insufficientTokens (token : TokenId) (required available : UInt64)
  | insufficientCurrency (required available : Satoshi)
  | missingParent (parent : TokenId)
  | quantityOverflow
  | emptyRequest
  deriving DecidableEq

namespace SelectionError

/-- The machine-readable name of the error, whatever its data. -/
def code : SelectionError → String
  | .insufficientTokens .. => "insufficient_token_balance"
  | .insufficientCurrency .. => "insufficient_currency_balance"
  | .missingParent _ => "missing_parent_utxo"
  | .quantityOverflow => "quantity_overflow"
  | .emptyRequest => "empty_request"

/-- The error as a sentence for people. -/
def message : SelectionError → String
  | .insufficientTokens token required available =>
    s!"Insufficient token balance ({token}): need {required}, have {available}"
  | .insufficientCurrency required available =>
    s!"Insufficient BCH balance: need {required} satoshi, have {available}"
  | .missingParent parent => s!"No NFT1 parent UTXO holding exactly 1 unit of {parent}"
  | .quantityOverflow => "Requested token quantities overflow 8 unsigned bytes"
  | .emptyRequest => "No token quantities requested"

end SelectionError

/-! ## Assembling outputs -/

/-- Why a selection cannot be spent the way it is asked for. -/
inductive AssemblyError where
  | noRecipients
  | tooManyOutputs (count : Nat)
  | amountMismatch (selected requested : UInt64)
  deriving DecidableEq

namespace AssemblyError

/-- The machine-readable name of the error, whatever its data. -/
def code : AssemblyError → String
  | .noRecipients => "no_recipients"
  | .tooManyOutputs _ => "too_many_outputs"
  | .amountMismatch .. => "amount_mismatch"

/-- The error as a sentence for people. -/
def message : AssemblyError → String
  | .noRecipients => "No recipients provided"
  | .tooManyOutputs count =>
    s!"Too many token outputs: {count} exceeds maximum of {Message.maxQuantities}"
  | .amountMismatch selected requested =>
    s!"Selection covers {selected} raw tokens but recipients total {requested}"

end AssemblyError

/-! ## Everything -/

/-- Whatever may go wrong between a request and its transaction, by the part that finds it. -/
inductive Error where
  | amount (cause : AmountError)
  | selection (cause : SelectionError)
  | message (cause : Message.Error)
  | assembly (cause : AssemblyError)
  | tokenId (cause : TokenId.Error)
  /-- An intermediate amount left the range of `Satoshi`. -/
  | overflow
  deriving DecidableEq

namespace Error

/-- The machine-readable name of the error, which is that of its cause. -/
def code : Error → String
  | .amount cause => cause.code
  | .selection cause => cause.code
  | .message cause => cause.code
  | .assembly cause => cause.code
  | .tokenId _ => "invalid_token_id"
  | .overflow => "overflow"

/-- The error as a sentence for people: which part found it, and what the part says. -/
def text : Error → String
  | .amount cause => "Amount error: " ++ cause.message
  | .selection cause => "Selection error: " ++ cause.message
  | .message cause => "OP_RETURN error: " ++ cause.message
  | .assembly cause => "Transaction error: " ++ cause.message
  | .tokenId cause => "Invalid token id: " ++ cause.message
  | .overflow => "An amount left the range of 64 bits"

end Error

/-- The value of checked arithmetic, where there is one. -/
def checked {α : Type} : Option α → Except Error α
  | some a => .ok a
  | none => .error .overflow

end SimpleLedger
