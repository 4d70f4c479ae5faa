import SimpleLedger.Json.Shape
import SimpleLedger.Network
import SimpleLedger.Token.Descriptor

/-!
# Tokens and addresses in JSON

Every type that is exchanged has a pair of functions, `toJson` and `ofJson?`.
-/

set_option autoImplicit false

namespace SimpleLedger

/-! ## Identifiers, addresses, networks -/

namespace TokenId

/-- An identifier as its digits. -/
def toJson (id : TokenId) : Json := .text id.toHex

/-- The identifier that a text of digits stands for. -/
def ofJson? (j : Json) : Option TokenId := j.text?.bind fun s => (ofHex s).toOption

end TokenId

namespace Address

/-- An address as its text. -/
def toJson (a : Address) : Json := .text a.text

/-- The address of any text at all. -/
def ofJson? (j : Json) : Option Address := j.text?.map Address.mk

end Address

namespace Network

/-- A network as its name. -/
def toJson (n : Network) : Json := .text n.name

/-- The network that a document names. -/
def ofJson? (j : Json) : Option Network := j.choice? ofName?

end Network

/-! ## Types and kinds -/

namespace TokenType

/-- The name of a type in documents. -/
def name : TokenType → String
  | .fungible => "fungible"
  | .nftParent => "nftParent"
  | .nftChild => "nftChild"

/-- The type with this name. -/
def ofName? (s : String) : Option TokenType := all.find? fun t => t.name == s

/-- A type as its name. -/
def toJson (t : TokenType) : Json := .text t.name

/-- The type that a document names. -/
def ofJson? (j : Json) : Option TokenType := j.choice? ofName?

end TokenType

namespace TokenKind

/-- The parent of a child is left out where it is not known. -/
def toJson : TokenKind → Json
  | .fungible => .object [("type", .text "fungible")]
  | .nftGroup => .object [("type", .text "nftGroup")]
  | .nft none => .object [("type", .text "nonFungible")]
  | .nft (some parent) =>
    .object [("type", .text "nonFungible"), ("parent_id", parent.toJson)]

/-- The kind that a choice gives, inside `nesting` other values. -/
def ofJson? (nesting : Nat) (j : Json) : Option TokenKind := do
  let (tag, data) ← j.tagged? nesting
  if tag = "fungible" then data.empty?.map fun _ => .fungible
  else if tag = "nftGroup" then data.empty?.map fun _ => .nftGroup
  else if tag = "nonFungible" then do
    let r ← data.record? ["parent_id"]
    return .nft (← r.withDefault "parent_id" (·.nullable? TokenId.ofJson?) none)
  else none

end TokenKind

/-! ## Descriptors -/

namespace Descriptor

/-- A descriptor as an object. -/
def toJson (d : Descriptor) : Json :=
  .object [("tokenId", d.tokenId.toJson), ("ticker", .text d.ticker), ("name", .text d.name),
    ("decimals", .nat d.decimals.toNat), ("kind", d.kind.toJson)]

/-- The name may be missing. -/
def ofJson? (j : Json) : Option Descriptor := do
  let r ← j.record? ["tokenId", "ticker", "name", "decimals", "kind"]
  return {
    tokenId := ← r.required "tokenId" TokenId.ofJson?
    ticker := ← r.required "ticker" Json.text?
    name := ← r.withDefault "name" Json.text? ""
    decimals := ← r.required "decimals" Json.uint8?
    kind := ← r.required "kind" (TokenKind.ofJson? 1) }

end Descriptor
end SimpleLedger
