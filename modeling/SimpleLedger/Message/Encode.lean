import SimpleLedger.Message.Basic

/-!
# Writing messages

Every message is a list of chunks: `Message.lokadId`, the type of token, the keyword of the
operation and the fields of that operation.

    GENESIS  ticker  name  document URL  document hash  decimals  baton  quantity
    MINT     token id  baton  quantity
    SEND     token id  quantity (1 to 19 times)

Only a GENESIS can outgrow `Message.maxLength`, since only it holds free text, so only there is
the length checked.
-/

set_option autoImplicit false

namespace SimpleLedger
namespace Message

/-- The script of an operation with the given fields. -/
def script (tokenType : TokenType) (operation : Operation) (fields : List Bytes) : Bytes :=
  Script.ofChunks (lokadId :: [tokenType.byte] :: operation.keyword :: fields)

/-- The fields of a GENESIS in their order.  A missing digest is an empty chunk. -/
def genesisFields (g : Genesis) : List Bytes :=
  [Utf8.encode g.ticker, Utf8.encode g.name, Utf8.encode g.documentUrl,
    (g.documentHash.map Digest.bytes).getD [], [g.decimals],
    Script.optionalByte g.mintBatonVout, Script.quantity g.initialQuantity]

/-- The script of a GENESIS, if its fields are in range and it is short enough to be relayed. -/
def encodeGenesis (tokenType : TokenType) (g : Genesis) : Except Error Bytes := do
  checkDecimals g.decimals
  checkMintBaton g.mintBatonVout
  checkChild tokenType g
  let bytes := script tokenType .genesis (genesisFields g)
  if maxLength < bytes.length then .error (.tooLong bytes.length) else .ok bytes

/-- The script that creates a unique child. -/
def encodeChildGenesis (ticker name documentUrl : String) : Except Error Bytes :=
  encodeGenesis .nftChild (Genesis.child ticker name documentUrl)

/-- The script of a MINT.  There is none for unique children. -/
def encodeMint (tokenType : TokenType) (id : TokenId) (mintBatonVout : Option UInt8)
    (quantity : UInt64) : Except Error Bytes :=
  if tokenType = .nftChild then .error (.unsupportedOperation tokenType .mint)
  else do
    checkMintBaton mintBatonVout
    return script tokenType .mint
      [id.bytes, Script.optionalByte mintBatonVout, Script.quantity quantity]

/-- Quantity `i` goes to output `i + 1`. -/
def encodeSend (tokenType : TokenType) (id : TokenId) (quantities : List UInt64) :
    Except Error Bytes :=
  if quantities.isEmpty ∨ maxQuantities < quantities.length then
    .error (.invalidQuantityCount quantities.length)
  else .ok (script tokenType .send (id.bytes :: quantities.map Script.quantity))

/-- A SEND to several recipients, in their order, and then the change if there is some. -/
def encodePayments (tokenType : TokenType) (id : TokenId) (recipients : List UInt64)
    (change : Option UInt64) : Except Error Bytes :=
  encodeSend tokenType id (recipients ++ (change.filter (0 < ·)).toList)

end Message
end SimpleLedger
