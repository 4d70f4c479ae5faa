import SimpleLedger.Message.Basic

/-!
# Reading messages

`Message.decode` reads what `SimpleLedger.Message.Encode` writes, and the same chunks pushed in
any other way.  Texts need not be well formed UTF-8; quantities and identifiers have fixed
lengths, and the number of fields has to be exact.
-/

set_option autoImplicit false

namespace SimpleLedger
namespace Message

/-! ## Fields -/

/-- An identifier of 32 bytes. -/
def readTokenId (chunk : Bytes) : Except Error TokenId :=
  match TokenId.ofBytes chunk with
  | .ok id => .ok id
  | .error _ => .error (.invalidFieldLength .tokenId chunk.length)

/-- A quantity of eight bytes. -/
def readQuantity (chunk : Bytes) : Except Error UInt64 :=
  if chunk.length = 8 then .ok (UInt64.ofNat (Bytes.ofBigEndian chunk))
  else .error (.invalidFieldLength .quantity chunk.length)

/-- The decimals of a token, in a single byte that is not too large. -/
def readDecimals (chunk : Bytes) : Except Error UInt8 :=
  match chunk with
  | [b] => do
    checkDecimals b
    return b
  | _ => .error (.invalidFieldLength .decimals chunk.length)

/-- The output that gets the right to mint, `none` for an empty chunk. -/
def readMintBaton (chunk : Bytes) : Except Error (Option UInt8) :=
  match chunk with
  | [] => .ok none
  | [b] => do
    checkMintBaton (some b)
    return some b
  | _ => .error (.invalidFieldLength .mintBatonVout chunk.length)

/-- A digest of 32 bytes, `none` for an empty chunk. -/
def readDocumentHash (chunk : Bytes) : Except Error (Option Digest) :=
  if chunk.isEmpty then .ok none
  else
    match Digest.ofBytes? chunk with
    | some d => .ok (some d)
    | none => .error (.invalidFieldLength .documentHash chunk.length)

/-- The type of token that a single byte stands for. -/
def readTokenType (chunk : Bytes) : Except Error TokenType :=
  match chunk with
  | [b] =>
    match TokenType.ofByte? b with
    | some t => .ok t
    | none => .error (.unknownTokenType chunk)
  | _ => .error (.unknownTokenType chunk)

/-- The kind of message that a keyword means for a type of token. -/
def readKind (tokenType : TokenType) (chunk : Bytes) : Except Error MessageKind :=
  match Operation.ofKeyword? chunk with
  | none => .error (.unknownOperation (Utf8.decodeLossy chunk))
  | some operation =>
    match MessageKind.of? tokenType operation with
    | some kind => .ok kind
    | none => .error (.unsupportedOperation tokenType .mint)

/-! ## Operations -/

/-- The message of a GENESIS with these seven fields.  The texts may be any bytes. -/
def decodeGenesis (tokenType : TokenType) (kind : MessageKind) :
    List Bytes → Except Error Message
  | [ticker, name, url, hash, decimals, baton, quantity] => do
    let hash ← readDocumentHash hash
    let decimals ← readDecimals decimals
    let baton ← readMintBaton baton
    let quantity ← readQuantity quantity
    let details : TokenDetails :=
      ⟨Utf8.decodeLossy ticker, Utf8.decodeLossy name, Utf8.decodeLossy url, hash, decimals⟩
    checkChild tokenType ⟨details, baton, quantity⟩
    return ⟨tokenType, kind, none, some details, baton, [quantity]⟩
  | fields => .error (.chunkCount 10 (fields.length + 3))

/-- The message of a MINT with these three fields. -/
def decodeMint (tokenType : TokenType) (kind : MessageKind) : List Bytes → Except Error Message
  | [id, baton, quantity] => do
    let baton ← readMintBaton baton
    let id ← readTokenId id
    let quantity ← readQuantity quantity
    return ⟨tokenType, kind, some id, none, baton, [quantity]⟩
  | fields => .error (.chunkCount 6 (fields.length + 3))

/-- The quantities are looked at before the identifier. -/
def decodeSend (tokenType : TokenType) (kind : MessageKind) : List Bytes → Except Error Message
  | [] => .error (.chunkCount 5 3)
  | id :: quantities =>
    if quantities.isEmpty ∨ maxQuantities < quantities.length then
      .error (.invalidQuantityCount quantities.length)
    else do
      let quantities ← quantities.mapM readQuantity
      let id ← readTokenId id
      return ⟨tokenType, kind, some id, none, none, quantities⟩

/-! ## Scripts -/

/-- The message that a list of chunks spells. -/
def ofChunks (chunks : List Bytes) : Except Error Message :=
  if chunks.head? ≠ some lokadId then .error .foreign
  else
    match chunks with
    | _ :: tokenType :: keyword :: fields => do
      let tokenType ← readTokenType tokenType
      let kind ← readKind tokenType keyword
      match kind.operation with
      | .genesis => decodeGenesis tokenType kind fields
      | .mint => decodeMint tokenType kind fields
      | .send => decodeSend tokenType kind fields
    | _ => .error (.chunkCount 3 chunks.length)

/-- The message that a script holds.  Whether the script is a list of pushes is found out before any
chunk is looked at. -/
def decode (script : Bytes) : Except Error Message :=
  match Script.chunks script with
  | .ok chunks => ofChunks chunks
  | .error e => .error (.script e)

end Message
end SimpleLedger
