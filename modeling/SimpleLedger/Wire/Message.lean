import SimpleLedger.Message.Basic
import SimpleLedger.Wire.Token

/-!
# Messages in JSON
-/

set_option autoImplicit false

namespace SimpleLedger

namespace Digest

/-- The bytes as numbers. -/
def toJson (d : Digest) : Json := .list (fun b : UInt8 => .nat b.toNat) d.bytes

/-- The digest of 32 bytes given as numbers. -/
def ofJson? (j : Json) : Option Digest := (j.list? Json.uint8?).bind ofBytes?

end Digest

namespace MessageKind

/-- The name of a kind in documents. -/
def name : MessageKind → String
  | .genesis => "genesis"
  | .mint => "mint"
  | .send => "send"
  | .nftParentGenesis => "nftParentGenesis"
  | .nftParentMint => "nftParentMint"
  | .nftParentSend => "nftParentSend"
  | .nftChildGenesis => "nftChildGenesis"
  | .nftChildSend => "nftChildSend"

/-- The kind with this name. -/
def ofName? (s : String) : Option MessageKind := all.find? fun k => k.name == s

/-- A kind as its name. -/
def toJson (k : MessageKind) : Json := .text k.name

/-- The kind that a document names. -/
def ofJson? (j : Json) : Option MessageKind := j.choice? ofName?

end MessageKind

namespace TokenDetails

/-- The details of a token as an object, with null for a missing digest. -/
def toJson (d : TokenDetails) : Json :=
  .object [("ticker", .text d.ticker), ("name", .text d.name),
    ("documentUrl", .text d.documentUrl),
    ("documentHash", .nullable Digest.toJson d.documentHash),
    ("decimals", .nat d.decimals.toNat)]

/-- The details that a record gives.  The digest may be left out. -/
def ofJson? (j : Json) : Option TokenDetails := do
  let r ← j.record? ["ticker", "name", "documentUrl", "documentHash", "decimals"]
  return {
    ticker := ← r.required "ticker" Json.text?
    name := ← r.required "name" Json.text?
    documentUrl := ← r.required "documentUrl" Json.text?
    documentHash := ← r.optional "documentHash" Digest.ofJson?
    decimals := ← r.required "decimals" Json.uint8? }

end TokenDetails

namespace Genesis

/-- A GENESIS as one object, the details of the token among its members. -/
def toJson (g : Genesis) : Json :=
  .object [("ticker", .text g.ticker), ("name", .text g.name),
    ("documentUrl", .text g.documentUrl),
    ("documentHash", .nullable Digest.toJson g.documentHash),
    ("decimals", .nat g.decimals.toNat),
    ("mintBatonVout", .nullable (fun b : UInt8 => .nat b.toNat) g.mintBatonVout),
    ("initialQuantity", .nat g.initialQuantity.toNat)]

/-- The GENESIS that a record gives.  The digest and the right to mint may be left out. -/
def ofJson? (j : Json) : Option Genesis := do
  let r ← j.record? ["ticker", "name", "documentUrl", "documentHash", "decimals",
    "mintBatonVout", "initialQuantity"]
  return {
    ticker := ← r.required "ticker" Json.text?
    name := ← r.required "name" Json.text?
    documentUrl := ← r.required "documentUrl" Json.text?
    documentHash := ← r.withDefault "documentHash" (·.nullable? Digest.ofJson?) none
    decimals := ← r.required "decimals" Json.uint8?
    mintBatonVout := ← r.withDefault "mintBatonVout" (·.nullable? Json.uint8?) none
    initialQuantity := ← r.required "initialQuantity" Json.uint64? }

end Genesis

namespace Message

/-- A message as an object, with null for what it does not have. -/
def toJson (m : Message) : Json :=
  .object [("tokenType", m.tokenType.toJson), ("txType", m.kind.toJson),
    ("tokenId", .nullable TokenId.toJson m.tokenId),
    ("genesis", .nullable TokenDetails.toJson m.details),
    ("mintBatonVout", .nullable (fun b : UInt8 => .nat b.toNat) m.mintBatonVout),
    ("quantities", .list (fun q : UInt64 => .nat q.toNat) m.quantities)]

/-- The message that a record gives.  What it does not have may be left out. -/
def ofJson? (j : Json) : Option Message := do
  let r ← j.record? ["tokenType", "txType", "tokenId", "genesis", "mintBatonVout", "quantities"]
  return {
    tokenType := ← r.required "tokenType" TokenType.ofJson?
    kind := ← r.required "txType" MessageKind.ofJson?
    tokenId := ← r.optional "tokenId" TokenId.ofJson?
    details := ← r.optional "genesis" TokenDetails.ofJson?
    mintBatonVout := ← r.optional "mintBatonVout" Json.uint8?
    quantities := ← r.required "quantities" (·.list? Json.uint64?) }

end Message
end SimpleLedger
