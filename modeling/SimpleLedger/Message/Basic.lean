import SimpleLedger.Script
import SimpleLedger.Token.Amount

/-!
# Messages

A message says what a transaction does with a token: it creates one (GENESIS), issues more of it
(MINT) or moves it (SEND).  This module holds the parts of a message, what a decoded message looks
like, and what may be wrong with one.
-/

set_option autoImplicit false

namespace SimpleLedger

/-! ## What a message does -/

/-- What a message does with its token. -/
inductive Operation where
  | genesis
  | mint
  | send
  deriving DecidableEq

namespace Operation

/-- The chunk that names the operation. -/
def keyword : Operation → Bytes
  | .genesis => Utf8.encode "GENESIS"
  | .mint => Utf8.encode "MINT"
  | .send => Utf8.encode "SEND"

/-- All operations, in the order in which keywords are looked up. -/
def all : List Operation := [.genesis, .mint, .send]

/-- The operation that a chunk names. -/
def ofKeyword? (chunk : Bytes) : Option Operation := all.find? fun op => op.keyword == chunk

end Operation

/-- An operation on tokens of one type.  Unique children cannot be minted again. -/
inductive MessageKind where
  | genesis
  | mint
  | send
  | nftParentGenesis
  | nftParentMint
  | nftParentSend
  | nftChildGenesis
  | nftChildSend
  deriving DecidableEq

namespace MessageKind

/-- What a message of this kind does. -/
def operation : MessageKind → Operation
  | .genesis | .nftParentGenesis | .nftChildGenesis => .genesis
  | .mint | .nftParentMint => .mint
  | .send | .nftParentSend | .nftChildSend => .send

/-- The type of the tokens that a message of this kind is about. -/
def tokenType : MessageKind → TokenType
  | .genesis | .mint | .send => .fungible
  | .nftParentGenesis | .nftParentMint | .nftParentSend => .nftParent
  | .nftChildGenesis | .nftChildSend => .nftChild

/-- All kinds, in the order in which names are looked up. -/
def all : List MessageKind :=
  [.genesis, .mint, .send, .nftParentGenesis, .nftParentMint, .nftParentSend, .nftChildGenesis,
    .nftChildSend]

/-- The kind of message that does `op` to tokens of type `t`. -/
def of? (t : TokenType) (op : Operation) : Option MessageKind :=
  all.find? fun k => k.tokenType == t && k.operation == op

theorem of?_eq_some_iff {t : TokenType} {op : Operation} {k : MessageKind} :
    of? t op = some k ↔ k.tokenType = t ∧ k.operation = op := by
  constructor
  · intro h
    simpa using List.find?_some h
  · rintro ⟨rfl, rfl⟩
    cases k <;> decide

/-- Whether a message of this kind creates a token. -/
def isGenesis (k : MessageKind) : Bool := k.operation = .genesis

/-- Whether a message of this kind issues more of a token. -/
def isMint (k : MessageKind) : Bool := k.operation = .mint

/-- Whether a message of this kind moves tokens. -/
def isSend (k : MessageKind) : Bool := k.operation = .send

end MessageKind

/-! ## Parts of a message -/

/-- What a GENESIS tells about its token. -/
structure TokenDetails where
  ticker : String
  name : String
  documentUrl : String
  documentHash : Option Digest
  decimals : UInt8
  deriving DecidableEq

/-- A GENESIS to be written. -/
structure Genesis extends TokenDetails where
  /-- The output that gets the right to mint, `none` for a fixed supply. -/
  mintBatonVout : Option UInt8
  initialQuantity : UInt64
  deriving DecidableEq

/-- The GENESIS of a unique child: one unit, no decimals, nothing to mint. -/
def Genesis.child (ticker name documentUrl : String) : Genesis where
  ticker := ticker
  name := name
  documentUrl := documentUrl
  documentHash := none
  decimals := 0
  mintBatonVout := none
  initialQuantity := 1

/-- Whether a GENESIS is one of a unique child. -/
def Genesis.IsIndivisible (g : Genesis) : Prop :=
  g.decimals = 0 ∧ g.mintBatonVout = none ∧ g.initialQuantity = 1

instance (g : Genesis) : Decidable g.IsIndivisible :=
  inferInstanceAs (Decidable (_ ∧ _ ∧ _))

/-- A decoded message. -/
structure Message where
  tokenType : TokenType
  kind : MessageKind
  /-- The token that is minted or sent.  A GENESIS makes a new one. -/
  tokenId : Option TokenId
  details : Option TokenDetails
  mintBatonVout : Option UInt8
  /-- Quantity `i` belongs to output `i + 1`. -/
  quantities : List UInt64
  deriving DecidableEq

/-- Whether a message gives the right to mint to somebody. -/
def Message.hasMintBaton (m : Message) : Bool := m.mintBatonVout.isSome

namespace Message

/-- The chunk that every message begins with. -/
def lokadId : Bytes := Utf8.encode "SLP\x00"

/-- The most quantities in a SEND. -/
def maxQuantities : Nat := 19

/-- The length up to which scripts are relayed. -/
def maxLength : Nat := 223

/-! ## What may be wrong -/

/-- The fields whose length is checked. -/
inductive Field where
  | documentHash
  | decimals
  | mintBatonVout
  | tokenId
  | quantity
  deriving DecidableEq

/-- The name of a field in errors. -/
def Field.name : Field → String
  | .documentHash => "document_hash"
  | .decimals => "decimals"
  | .mintBatonVout => "mint_baton_vout"
  | .tokenId => "token_id"
  | .quantity => "quantity"

/-- What some types of token do not allow. -/
inductive Restricted where
  | mint
  | genesisWithoutParent
  deriving DecidableEq

/-- The name of a restriction in errors. -/
def Restricted.name : Restricted → String
  | .mint => "MINT"
  | .genesisWithoutParent => "GENESIS without parent"

/-- Why a message cannot be written, or a script holds none. -/
inductive Error where
  | invalidDecimals (decimals : UInt8)
  | invalidMintBatonVout (vout : UInt8)
  | invalidQuantityCount (count : Nat)
  | unsupportedOperation (tokenType : TokenType) (operation : Restricted)
  | script (cause : Script.Error)
  /-- The script begins with another chunk than `lokadId`. -/
  | foreign
  | unknownTokenType (chunk : Bytes)
  | unknownOperation (keyword : String)
  | invalidFieldLength (field : Field) (length : Nat)
  | chunkCount (expected actual : Nat)
  | invalidChildGenesis
  | tooLong (length : Nat)
  deriving DecidableEq

namespace Error

/-- The machine-readable name of the error.  Values that are not allowed are told apart from chunks
that cannot be read. -/
def code : Error → String
  | .invalidDecimals _ | .invalidMintBatonVout _ | .invalidQuantityCount _
  | .unsupportedOperation .. | .invalidChildGenesis | .tooLong _ => "invalid_op_return_field"
  | .script cause => cause.code
  | .foreign => "not_slp"
  | .unknownTokenType _ | .unknownOperation _ | .invalidFieldLength .. | .chunkCount .. =>
    "malformed_op_return"

/-- The error as a sentence for people. -/
def message : Error → String
  | .invalidDecimals decimals => s!"Decimals must be 0-9, got {decimals}"
  | .invalidMintBatonVout vout => s!"Mint baton vout must be at least 2, got {vout}"
  | .invalidQuantityCount count => s!"SEND carries 1-19 quantities, got {count}"
  | .unsupportedOperation tokenType operation =>
    s!"{operation.name} is not defined for token type 0x{Hex.encode [tokenType.byte]}"
  | .script cause => cause.message
  | .foreign => "OP_RETURN does not carry the SLP lokad id"
  | .unknownTokenType chunk => s!"Unknown token type 0x{Hex.encode chunk}"
  | .unknownOperation keyword => s!"Unknown transaction type {Text.quote keyword}"
  | .invalidFieldLength field length => s!"Field {field.name} has invalid length {length}"
  | .chunkCount expected actual => s!"Expected {expected} chunks, got {actual}"
  | .invalidChildGenesis =>
    "NFT1 child GENESIS must have 0 decimals, no mint baton and quantity 1"
  | .tooLong length => s!"OP_RETURN is {length} bytes, relay limit is {maxLength}"

end Error

/-! ## Checks shared by writing and reading -/

/-- Output 0 is the message and output 1 gets the quantity, so the right to mint comes later. -/
def checkMintBaton (vout : Option UInt8) : Except Error Unit :=
  match vout with
  | some v => if v < 2 then .error (.invalidMintBatonVout v) else .ok ()
  | none => .ok ()

/-- Refuses more than `maxDecimals` decimals. -/
def checkDecimals (decimals : UInt8) : Except Error Unit :=
  if maxDecimals < decimals then .error (.invalidDecimals decimals) else .ok ()

/-- A GENESIS of a unique child has one unit that can neither be divided nor minted again. -/
def checkChild (tokenType : TokenType) (g : Genesis) : Except Error Unit :=
  if tokenType = .nftChild ∧ ¬g.IsIndivisible then .error .invalidChildGenesis else .ok ()

end Message
end SimpleLedger
