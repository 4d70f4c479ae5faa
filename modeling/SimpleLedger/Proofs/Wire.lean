import SimpleLedger.Proofs.TokenId
import SimpleLedger.Wire.Draft
import SimpleLedger.Wire.Message

/-!
# Exchanged data read back

Everything that is exchanged has a pair of functions `toJson` and `ofJson?`.  Each pair is an
instance of `Json.Inverts`, put together from those of the fields, and so a document holds the
value it was written from (`documents_round_trip`).

A configuration is read with defaults for what is missing.  A document that was written by
`Config.toJson` misses nothing (`Config.isExplicit_compact`).
-/

set_option autoImplicit false

namespace SimpleLedger

open Json

/-! ## Identifiers, addresses, names -/

namespace TokenId

/-- An identifier that may be missing. -/
theorem inverts_nullable : Inverts (nullable? ofJson?) (nullable toJson) := inverts.nullable nofun

end TokenId

namespace Digest

theorem inverts : Inverts ofJson? toJson where
  plain d := inverts_uint8.list.plain d.bytes
  read_write d := by
    rw [toJson, ofJson?, inverts_uint8.list.read_write, Option.bind_some, ofBytes?_eq_some_iff]

theorem inverts_nullable : Inverts (nullable? ofJson?) (nullable toJson) := inverts.nullable nofun

end Digest

theorem Address.inverts : Inverts ofJson? toJson := ⟨fun _ => .text _, fun _ => rfl⟩

theorem Network.inverts : Inverts ofJson? toJson := inverts_choice fun n => by cases n <;> rfl

theorem TokenType.inverts : Inverts ofJson? toJson := inverts_choice fun t => by cases t <;> rfl

theorem MessageKind.inverts : Inverts ofJson? toJson := inverts_choice fun k => by cases k <;> rfl

theorem Satoshi.inverts : Inverts satoshi? toJson := inverts_satoshi

theorem Satoshi.fits_toJson (s : Satoshi) (room : Nat) : s.toJson.fits room = true := by
  have hlower := s.le_toInt
  have hupper := s.toInt_lt
  rw [toJson, int, fits]
  exact Number.isDouble_integer (by rw [UInt64.size]; omega)

/-! ## Choices -/

section

variable {nesting : Nat}

theorem TokenKind.inverts (hnesting : nesting < maxNesting) :
    Inverts (ofJson? nesting) toJson where
  plain
    | .fungible | .nftGroup | .nft none => .object (by simp [inverts_text.plain])
    | .nft (some parent) => .object (by simp [inverts_text.plain, TokenId.inverts.plain])
  read_write := by
    simp only [ofJson?, Option.bind_eq_bind, Option.bind_eq_some_iff]
    rintro (- | - | (- | parent))
    · exact ⟨_, tagged?_object hnesting nofun nofun, rfl⟩
    · exact ⟨_, tagged?_object hnesting nofun nofun, rfl⟩
    · exact ⟨_, tagged?_object hnesting nofun nofun, rfl⟩
    · refine ⟨_, tagged?_object hnesting (by simp) (by simp [TokenId.toJson, fits, text]), ?_⟩
      simp only [String.reduceEq, ↓reduceIte, Option.bind_eq_some_iff]
      exact ⟨_, record?_object rfl (by decide), _,
        TokenId.inverts_nullable.withDefault (a := some parent) rfl, rfl⟩

theorem Output.inverts (hnesting : nesting < maxNesting) : Inverts (ofJson? nesting) toJson where
  plain
    | .message _ => .object (by simp [inverts_text.plain])
    | .payTo _ _ =>
      .object (by simp [inverts_text.plain, Address.inverts.plain, Satoshi.inverts.plain])
  read_write := by
    simp only [ofJson?, Option.bind_eq_bind, Option.bind_eq_some_iff]
    rintro (script | ⟨address, value⟩)
    · refine ⟨_, tagged?_object hnesting (by simp) (by simp [fits, text]), ?_⟩
      simp only [↓reduceIte, Option.bind_eq_some_iff]
      exact ⟨_, record?_object rfl (by decide), _, inverts_text.required rfl, rfl⟩
    · refine ⟨_, tagged?_object hnesting (by simp)
        (by simp [fits, text, Address.toJson, Satoshi.fits_toJson]), ?_⟩
      simp only [String.reduceEq, ↓reduceIte, Option.bind_eq_some_iff]
      exact ⟨_, record?_object rfl (by decide), _, Address.inverts.required rfl, _,
        Satoshi.inverts.required rfl, rfl⟩

example : compact (Output.toJson (.payTo ⟨"a:\"b\n"⟩ (-5))) =
    "\x7b\"type\":\"payTo\",\"address\":\"a:\\\"b\\n\",\"value\":-5\x7d" :=
  rfl

end

/-! ## Records -/

theorem Coin.inverts : Inverts ofJson? toJson where
  plain _ := .object (by
    simp [inverts_text.plain, inverts_uint32.plain, Satoshi.inverts.plain])
  read_write c := by
    simp only [ofJson?, Option.bind_eq_bind, Option.bind_eq_some_iff]
    exact ⟨_, record?_object rfl (by decide), _, inverts_text.required rfl, _,
      inverts_uint32.required rfl, _, Satoshi.inverts.required rfl, _,
      inverts_text.withDefault rfl, rfl⟩

theorem TokenCoin.inverts : Inverts ofJson? toJson where
  plain _ := .object (by
    simp [TokenId.inverts.plain, inverts_uint64.plain, Coin.inverts.plain])
  read_write c := by
    simp only [ofJson?, Option.bind_eq_bind, Option.bind_eq_some_iff]
    exact ⟨_, record?_object rfl (by decide), _, TokenId.inverts.required rfl, _,
      inverts_uint64.required rfl, _, Coin.inverts.required rfl, rfl⟩

theorem Draft.inverts : Inverts ofJson? toJson := by
  have houtput : Inverts (Output.ofJson? 2) Output.toJson := Output.inverts (by decide)
  refine ⟨fun d => .object (by simp [Coin.inverts.list.plain, houtput.list.plain]), fun d => ?_⟩
  simp only [ofJson?, Option.bind_eq_bind, Option.bind_eq_some_iff]
  exact ⟨_, record?_object rfl (by decide), _, Coin.inverts.list.required rfl, _,
    houtput.list.required rfl, rfl⟩

theorem Descriptor.inverts : Inverts ofJson? toJson := by
  have hkind : Inverts (TokenKind.ofJson? 1) TokenKind.toJson := TokenKind.inverts (by decide)
  refine ⟨fun d => .object (by
    simp [TokenId.inverts.plain, inverts_text.plain, inverts_uint8.plain, hkind.plain]),
    fun d => ?_⟩
  simp only [ofJson?, Option.bind_eq_bind, Option.bind_eq_some_iff]
  exact ⟨_, record?_object rfl (by decide), _, TokenId.inverts.required rfl, _,
    inverts_text.required rfl, _, inverts_text.withDefault rfl, _, inverts_uint8.required rfl, _,
    hkind.required rfl, rfl⟩

theorem TokenDetails.inverts : Inverts ofJson? toJson where
  plain _ := .object (by
    simp [inverts_text.plain, Digest.inverts_nullable.plain, inverts_uint8.plain])
  read_write d := by
    simp only [ofJson?, Option.bind_eq_bind, Option.bind_eq_some_iff]
    exact ⟨_, record?_object rfl (by decide), _, inverts_text.required rfl, _,
      inverts_text.required rfl, _, inverts_text.required rfl, _,
      Digest.inverts_nullable.optional rfl, _, inverts_uint8.required rfl, rfl⟩

theorem Genesis.inverts : Inverts ofJson? toJson where
  plain _ := .object (by
    simp [inverts_text.plain, Digest.inverts_nullable.plain, inverts_uint8.plain,
      inverts_nullable_uint8.plain, inverts_uint64.plain])
  read_write g := by
    simp only [ofJson?, Option.bind_eq_bind, Option.bind_eq_some_iff]
    exact ⟨_, record?_object rfl (by decide), _, inverts_text.required rfl, _,
      inverts_text.required rfl, _, inverts_text.required rfl, _,
      Digest.inverts_nullable.withDefault rfl, _, inverts_uint8.required rfl, _,
      inverts_nullable_uint8.withDefault rfl, _, inverts_uint64.required rfl, rfl⟩

theorem Message.inverts : Inverts ofJson? toJson := by
  have hdetails : Inverts (nullable? TokenDetails.ofJson?) (nullable TokenDetails.toJson) :=
    TokenDetails.inverts.nullable nofun
  refine ⟨fun m => .object (by
    simp [TokenType.inverts.plain, MessageKind.inverts.plain, TokenId.inverts_nullable.plain,
      hdetails.plain, inverts_nullable_uint8.plain, inverts_uint64.list.plain]), fun m => ?_⟩
  simp only [ofJson?, Option.bind_eq_bind, Option.bind_eq_some_iff]
  exact ⟨_, record?_object rfl (by decide), _, TokenType.inverts.required rfl, _,
    MessageKind.inverts.required rfl, _, TokenId.inverts_nullable.optional rfl, _,
    hdetails.optional rfl, _, inverts_nullable_uint8.optional rfl, _,
    inverts_uint64.list.required rfl, rfl⟩

/-! ## Configurations -/

namespace Fees

/-- The fields in their order. -/
def fieldNames : List String :=
  ["dustLimit", "inputFee", "outputFee", "opReturnBaseBytes", "quantityBytes",
    "propagationFeePerOutput"]

theorem inverts : Inverts ofJson? toJson where
  plain _ := .object (by simp [Satoshi.inverts.plain])
  read_write f := by
    simp only [ofJson?, Option.bind_eq_bind, Option.bind_eq_some_iff]
    exact ⟨_, record?_object rfl (by decide), _, Satoshi.inverts.withDefault rfl, _,
      Satoshi.inverts.withDefault rfl, _, Satoshi.inverts.withDefault rfl, _,
      Satoshi.inverts.withDefault rfl, _, Satoshi.inverts.withDefault rfl, _,
      Satoshi.inverts.withDefault rfl, rfl⟩

end Fees

namespace Config

/-- The members of a configuration that is written in full. -/
def fieldNames : List String := ["network", "fees", "feePerKb", "allowUnconfirmed"]

theorem inverts : Inverts ofJson? toJson where
  plain _ := .object (by
    simp [Network.inverts.plain, Fees.inverts.plain, Satoshi.inverts.plain, inverts_bool.plain])
  read_write f := by
    simp only [ofJson?, Option.bind_eq_bind, Option.bind_eq_some_iff]
    exact ⟨_, record?_object rfl (by decide), _, Network.inverts.required rfl, _,
      Fees.inverts.withDefault rfl, _, Satoshi.inverts.withDefault rfl, _,
      inverts_bool.withDefault rfl, rfl⟩

/-- A document that gives every field of a configuration and every one of its fees. -/
def IsExplicit (document : String) : Prop :=
  ∃ j r fees f, Json.parse? document = some j ∧
    j.record? fieldNames = some r ∧ r.IsExplicit fieldNames ∧
    r.fields.lookup "fees" = some fees ∧
    fees.record? Fees.fieldNames = some f ∧ f.IsExplicit Fees.fieldNames

theorem isExplicit_compact (c : Config) : IsExplicit (compact c.toJson) :=
  ⟨_, _, _, _, parse?_compact (inverts.plain c), record?_object rfl (by decide),
    Record.isExplicit_of_map_fst rfl, rfl, record?_object rfl (by decide),
    Record.isExplicit_of_map_fst rfl⟩

end Config

/-- **A document holds the value it was written from**, whatever characters the texts in it have and
whatever the numbers are.  A configuration is read from its own fields alone. -/
theorem documents_round_trip :
    (∀ d : Draft, (Json.parse? (compact d.toJson)).bind Draft.ofJson? = some d) ∧
    (∀ d : Descriptor, (Json.parse? (compact d.toJson)).bind Descriptor.ofJson? = some d) ∧
    (∀ c : TokenCoin, (Json.parse? (compact c.toJson)).bind TokenCoin.ofJson? = some c) ∧
    (∀ g : Genesis, (Json.parse? (compact g.toJson)).bind Genesis.ofJson? = some g) ∧
    (∀ m : Message, (Json.parse? (compact m.toJson)).bind Message.ofJson? = some m) ∧
    ∀ c : Config, Config.parse? (compact c.toJson) = some c ∧
      Config.IsExplicit (compact c.toJson) :=
  ⟨Draft.inverts.parse?_bind, Descriptor.inverts.parse?_bind, TokenCoin.inverts.parse?_bind,
    Genesis.inverts.parse?_bind, Message.inverts.parse?_bind,
    fun c => ⟨Config.inverts.parse?_bind c, c.isExplicit_compact⟩⟩

end SimpleLedger
