import SimpleLedger.TokenId

/-!
# Tokens

`TokenKind` says what a token is: a plain fungible token, a group whose units can be turned into
unique children, or such a child.  `TokenType` is the same distinction as messages carry it, in a
byte.  A `Descriptor` holds what is known about a token from the message that created it.
-/

set_option autoImplicit false

namespace SimpleLedger

/-! ## The type byte of messages -/

/-- The type of a token, as messages tell it. -/
inductive TokenType where
  | fungible
  | nftParent
  | nftChild
  deriving DecidableEq

namespace TokenType

/-- The byte that a message carries for a type. -/
def byte : TokenType → UInt8
  | .fungible => 0x01
  | .nftParent => 0x81
  | .nftChild => 0x41

/-- All types, in the order in which bytes and names are looked up. -/
def all : List TokenType := [.fungible, .nftParent, .nftChild]

/-- The type that a byte stands for. -/
def ofByte? (b : UInt8) : Option TokenType := all.find? fun t => t.byte == b

theorem ofByte?_eq_some_iff {b : UInt8} {t : TokenType} : ofByte? b = some t ↔ t.byte = b := by
  constructor
  · intro h
    simpa using List.find?_some h
  · rintro rfl
    cases t <;> decide

end TokenType

/-! ## Kinds -/

/-- What a token is. -/
inductive TokenKind where
  | fungible
  | nftGroup
  /-- Minted by burning one unit of the parent, where that is known. -/
  | nft (parent : Option TokenId)
  deriving DecidableEq

/-- The type under which tokens of a kind are sent. -/
def TokenKind.tokenType : TokenKind → TokenType
  | .fungible => .fungible
  | .nftGroup => .nftParent
  | .nft _ => .nftChild

/-! ## Decimals -/

/-- The most decimals a token may have. -/
def maxDecimals : UInt8 := 9

/-- Why a decimal amount has no raw quantity. -/
inductive AmountError where
  /-- The amount has digits beyond the decimals of the token. -/
  | precision (ticker : String) (decimals : UInt8) (amount : String)
  /-- The quantity does not fit 64 bits. -/
  | range (amount : String)
  | malformed (amount : String)
  | unsupportedDecimals (decimals : UInt8)
  deriving DecidableEq

namespace AmountError

/-- The machine-readable name of the error, whatever its data. -/
def code : AmountError → String
  | .precision .. => "precision"
  | .range _ => "range"
  | .malformed _ => "malformed_amount"
  | .unsupportedDecimals _ => "unsupported_decimals"

/-- The error as a sentence for people. -/
def message : AmountError → String
  | .precision ticker decimals amount =>
    s!"{ticker} supports maximum {decimals} decimals but amount is {amount}"
  | .range amount => s!"Amount {amount} does not fit in 8 unsigned bytes"
  | .malformed amount => s!"Malformed decimal amount: {Text.quote amount}"
  | .unsupportedDecimals decimals => s!"Unsupported decimal precision {decimals} (maximum 9)"

end AmountError

/-! ## Descriptors -/

/-- What is known about a token. -/
structure Descriptor where
  tokenId : TokenId
  ticker : String
  name : String
  decimals : UInt8
  kind : TokenKind
  deriving DecidableEq

namespace Descriptor

/-- The decimals, unless there are too many of them. -/
def checkDecimals (decimals : UInt8) : Except AmountError UInt8 :=
  if maxDecimals < decimals then .error (.unsupportedDecimals decimals) else .ok decimals

/-- A fungible token.  It has no name, and too many decimals are refused. -/
def fungible (id : TokenId) (ticker : String) (decimals : UInt8) :
    Except AmountError Descriptor := do
  return ⟨id, ticker, "", ← checkDecimals decimals, .fungible⟩

/-- A group.  Too many decimals are refused. -/
def nftGroup (id : TokenId) (ticker name : String) (decimals : UInt8) :
    Except AmountError Descriptor := do
  return ⟨id, ticker, name, ← checkDecimals decimals, .nftGroup⟩

/-- A unique token.  It cannot be divided and has no decimals. -/
def nft (id : TokenId) (parent : Option TokenId) (ticker name : String) : Descriptor :=
  ⟨id, ticker, name, 0, .nft parent⟩

/-- Whether a token is a unique child. -/
def isNft (d : Descriptor) : Bool :=
  match d.kind with
  | .nft _ => true
  | _ => false

/-- Whether a token is a group. -/
def isNftGroup (d : Descriptor) : Bool := d.kind = .nftGroup

/-- One line for people. -/
def summary (d : Descriptor) : String := s!"{d.ticker} ({d.tokenId}, {d.decimals} decimals)"

end Descriptor
end SimpleLedger
