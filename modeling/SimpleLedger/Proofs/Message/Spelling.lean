import SimpleLedger.Message.Decode
import SimpleLedger.Message.Encode
import SimpleLedger.Proofs.Framing

/-!
# What a list of chunks spells

The reader of messages tests chunk after chunk.  This file turns every test into an equivalence: a
chunk is read as a value if and only if it is the chunk that is written for it.  Only texts are
different, since many byte strings read as the same text.

* `Spells cs m`: the chunks `cs` spell the message `m`.
* `ofChunks_eq_ok_iff`: the reader finds exactly what is spelled.
* `decode_eq_ok_iff`: a script is read as a message if and only if it frames chunks that spell it.
* `decode_script`: so are the scripts that the encoders put together.
-/

set_option autoImplicit false

namespace SimpleLedger

namespace Script

@[simp]
theorem length_quantity (q : UInt64) : (quantity q).length = 8 := Bytes.length_bigEndian 8 _

theorem toNat_ofNat_ofBigEndian {c : Bytes} (h : c.length = 8) :
    (UInt64.ofNat (Bytes.ofBigEndian c)).toNat = Bytes.ofBigEndian c := by
  have hlt := Bytes.ofBigEndian_lt c
  rw [h] at hlt
  exact UInt64.toNat_ofNat'.trans (Nat.mod_eq_of_lt hlt)

/-- Any eight bytes are a quantity. -/
theorem quantity_ofNat_ofBigEndian {c : Bytes} (h : c.length = 8) :
    quantity (UInt64.ofNat (Bytes.ofBigEndian c)) = c := by
  rw [quantity, toNat_ofNat_ofBigEndian h, ← h, Bytes.bigEndian_ofBigEndian]

theorem ofBigEndian_quantity (q : UInt64) : Bytes.ofBigEndian (quantity q) = q.toNat :=
  (Bytes.ofBigEndian_bigEndian 8 _).trans (Nat.mod_eq_of_lt q.toNat_lt)

end Script

namespace Message

/-! ## Kinds -/

/-- Every operation is there for every type of token, except that children are not minted. -/
theorem exists_kind_iff {t : TokenType} {op : Operation} :
    (∃ k : MessageKind, k.tokenType = t ∧ k.operation = op) ↔ ¬(t = .nftChild ∧ op = .mint) := by
  simp only [← MessageKind.of?_eq_some_iff, ← Option.isSome_iff_exists]
  cases t <;> cases op <;> decide

theorem exists_kind_of_ne_mint (t : TokenType) {op : Operation} (h : op ≠ .mint) :
    ∃ k : MessageKind, k.tokenType = t ∧ k.operation = op :=
  exists_kind_iff.2 fun hmint => h hmint.2

theorem tokenType_ne_of_mint {k : MessageKind} (h : k.operation = .mint) :
    k.tokenType ≠ .nftChild :=
  fun ht => exists_kind_iff.1 ⟨k, ht, h⟩ ⟨rfl, rfl⟩

/-! ## Checks -/

theorem checkDecimals_eq_ok_iff {d : UInt8} : checkDecimals d = .ok () ↔ d ≤ 9 := by
  rw [checkDecimals]
  split
  next h => exact iff_of_false nofun (UInt8.not_le.2 h)
  next h => exact iff_of_true rfl (UInt8.not_lt.1 h)

theorem checkMintBaton_eq_ok_iff {b : Option UInt8} :
    checkMintBaton b = .ok () ↔ ∀ v, b = some v → 2 ≤ v := by
  cases b with
  | none => exact iff_of_true rfl nofun
  | some v =>
    rw [checkMintBaton]
    split
    next h => exact iff_of_false nofun fun hv => absurd (hv v rfl) (UInt8.not_le.2 h)
    next h => exact iff_of_true rfl fun _ hv => Option.some.inj hv ▸ UInt8.not_lt.1 h

theorem checkChild_eq_ok_iff {t : TokenType} {g : Genesis} :
    checkChild t g = .ok () ↔ (t = .nftChild → g.IsIndivisible) := by
  rw [checkChild]
  split
  next h => exact iff_of_false nofun fun hg => h.2 (hg h.1)
  next h => exact iff_of_true rfl fun ht => not_not.1 fun hg => h ⟨ht, hg⟩

/-! ## Fields -/

theorem readTokenId_eq_ok_iff {c : Bytes} {id : TokenId} :
    readTokenId c = .ok id ↔ c = id.bytes := by
  rw [eq_comm (a := c), ← TokenId.ofBytes_eq_ok_iff, readTokenId]
  split
  next h => rw [h, Except.ok.injEq, Except.ok.injEq]
  next h => simp [h]

theorem readQuantity_eq_ok_iff {c : Bytes} {q : UInt64} :
    readQuantity c = .ok q ↔ c = Script.quantity q := by
  constructor
  · intro h
    rw [readQuantity] at h
    split at h
    next hlen =>
      cases h
      exact (Script.quantity_ofNat_ofBigEndian hlen).symm
    next => cases h
  · rintro rfl
    rw [readQuantity, if_pos (Script.length_quantity q), Script.ofBigEndian_quantity,
      UInt64.ofNat_toNat]

theorem mapM_readQuantity_eq_ok_iff {cs : List Bytes} {qs : List UInt64} :
    cs.mapM readQuantity = .ok qs ↔ cs = qs.map Script.quantity := by
  constructor
  · intro h
    induction cs generalizing qs with
    | nil => cases h; rfl
    | cons c cs ih =>
      rw [List.mapM_cons] at h
      obtain ⟨q, hq, h⟩ := bind_eq_ok_iff.1 h
      obtain ⟨qs', hqs, h⟩ := bind_eq_ok_iff.1 h
      cases h
      rw [readQuantity_eq_ok_iff.1 hq, ih hqs, List.map_cons]
  · rintro rfl
    induction qs with
    | nil => rfl
    | cons q qs ih =>
      rw [List.map_cons, List.mapM_cons, readQuantity_eq_ok_iff.2 rfl, ih]
      rfl

theorem readDecimals_eq_ok_iff {c : Bytes} {d : UInt8} :
    readDecimals c = .ok d ↔ checkDecimals d = .ok () ∧ c = [d] := by
  constructor
  · intro h
    rw [readDecimals.eq_def] at h
    split at h
    next b =>
      obtain ⟨⟨⟩, hb, h⟩ := bind_eq_ok_iff.1 h
      cases h
      exact ⟨hb, rfl⟩
    next => cases h
  · rintro ⟨h, rfl⟩
    simp only [readDecimals, h, bind, Except.bind, pure, Except.pure]

theorem readMintBaton_eq_ok_iff {c : Bytes} {b : Option UInt8} :
    readMintBaton c = .ok b ↔ checkMintBaton b = .ok () ∧ c = Script.optionalByte b := by
  constructor
  · intro h
    rw [readMintBaton.eq_def] at h
    split at h
    next => cases h; exact ⟨rfl, rfl⟩
    next v =>
      obtain ⟨⟨⟩, hv, h⟩ := bind_eq_ok_iff.1 h
      cases h
      exact ⟨hv, rfl⟩
    next => cases h
  · rintro ⟨h, rfl⟩
    cases b with
    | none => rfl
    | some b =>
      simp only [Script.optionalByte, Option.toList_some, readMintBaton, h, bind, Except.bind, pure,
        Except.pure]

theorem readDocumentHash_eq_ok_iff {c : Bytes} {d : Option Digest} :
    readDocumentHash c = .ok d ↔ c = (d.map Digest.bytes).getD [] := by
  constructor
  · intro h
    rw [readDocumentHash] at h
    split at h
    next hc => cases h; exact List.isEmpty_iff.1 hc
    next =>
    split at h
    next d hd => cases h; exact (Digest.ofBytes?_eq_some_iff.1 hd).symm
    next => cases h
  · rintro rfl
    cases d with
    | none => rfl
    | some d =>
      have hne : ¬d.bytes.isEmpty = true := by
        rw [List.isEmpty_iff, ← List.length_eq_zero_iff, d.length_bytes]
        decide
      simp only [Option.map_some, Option.getD_some, readDocumentHash, if_neg hne,
        Digest.ofBytes?_eq_some_iff.2 (rfl : d.bytes = d.bytes)]

theorem readTokenType_eq_ok_iff {c : Bytes} {t : TokenType} :
    readTokenType c = .ok t ↔ c = [t.byte] := by
  constructor
  · intro h
    rw [readTokenType.eq_def] at h
    split at h
    next b =>
      split at h
      next t ht => cases h; rw [TokenType.ofByte?_eq_some_iff.1 ht]
      next => cases h
    next => cases h
  · rintro rfl
    simp only [readTokenType, TokenType.ofByte?_eq_some_iff.2 (rfl : t.byte = t.byte)]

theorem ofKeyword?_eq_some_iff {c : Bytes} {op : Operation} :
    Operation.ofKeyword? c = some op ↔ c = op.keyword := by
  constructor
  · intro h
    have h := List.find?_some h
    exact (beq_iff_eq.1 h).symm
  · rintro rfl
    cases op <;> decide

theorem readKind_eq_ok_iff {t : TokenType} {c : Bytes} {k : MessageKind} :
    readKind t c = .ok k ↔ k.tokenType = t ∧ c = k.operation.keyword := by
  constructor
  · intro h
    rw [readKind] at h
    split at h
    next => cases h
    next op hop =>
    split at h
    next k' hk =>
      cases h
      obtain ⟨ht, rfl⟩ := MessageKind.of?_eq_some_iff.1 hk
      exact ⟨ht, ofKeyword?_eq_some_iff.1 hop⟩
    next => cases h
  · rintro ⟨rfl, rfl⟩
    simp only [readKind, ofKeyword?_eq_some_iff.2 (rfl : k.operation.keyword = _),
      MessageKind.of?_eq_some_iff.2 ⟨rfl, rfl⟩]

/-! ## Operations -/

/-- What the reader and the writer of a SEND test. -/
theorem not_isEmpty_or_lt_iff {α : Type} {l : List α} :
    ¬(l.isEmpty = true ∨ maxQuantities < l.length) ↔ 1 ≤ l.length ∧ l.length ≤ 19 := by
  rw [List.isEmpty_iff, ← List.length_eq_zero_iff, maxQuantities]
  omega

/-- The fields of a GENESIS that are not text. -/
def fixedFields (g : Genesis) : List Bytes :=
  [(g.documentHash.map Digest.bytes).getD [], [g.decimals], Script.optionalByte g.mintBatonVout,
    Script.quantity g.initialQuantity]

theorem decodeGenesis_eq_ok_iff {t : TokenType} {k : MessageKind} {fields : List Bytes}
    {m : Message} :
    decodeGenesis t k fields = .ok m ↔
      ∃ (g : Genesis) (ticker name url : Bytes),
        fields = ticker :: name :: url :: fixedFields g ∧
        g.ticker = Utf8.decodeLossy ticker ∧ g.name = Utf8.decodeLossy name ∧
        g.documentUrl = Utf8.decodeLossy url ∧ checkDecimals g.decimals = .ok () ∧
        checkMintBaton g.mintBatonVout = .ok () ∧ checkChild t g = .ok () ∧
        m = ⟨t, k, none, some g.toTokenDetails, g.mintBatonVout, [g.initialQuantity]⟩ := by
  constructor
  · intro h
    rw [decodeGenesis.eq_def] at h
    split at h
    next ticker name url hash decimals baton quantity =>
      obtain ⟨hash, hhash, h⟩ := bind_eq_ok_iff.1 h
      obtain ⟨decimals, hdecimals, h⟩ := bind_eq_ok_iff.1 h
      obtain ⟨baton, hbaton, h⟩ := bind_eq_ok_iff.1 h
      obtain ⟨quantity, hquantity, h⟩ := bind_eq_ok_iff.1 h
      obtain ⟨⟨⟩, hchild, h⟩ := bind_eq_ok_iff.1 h
      cases h
      obtain ⟨hdecimals', rfl⟩ := readDecimals_eq_ok_iff.1 hdecimals
      obtain ⟨hbaton', rfl⟩ := readMintBaton_eq_ok_iff.1 hbaton
      rw [readDocumentHash_eq_ok_iff.1 hhash, readQuantity_eq_ok_iff.1 hquantity]
      exact ⟨⟨⟨_, _, _, hash, decimals⟩, baton, quantity⟩, ticker, name, url, rfl, rfl, rfl, rfl,
        hdecimals', hbaton', hchild, rfl⟩
    next => cases h
  · rintro ⟨⟨⟨_, _, _, hash, decimals⟩, baton, quantity⟩, ticker, name, url, rfl, rfl, rfl, rfl,
      hdecimals, hbaton, hchild, rfl⟩
    simp only [fixedFields, decodeGenesis, readDocumentHash_eq_ok_iff.2 rfl,
      readDecimals_eq_ok_iff.2 ⟨hdecimals, rfl⟩, readMintBaton_eq_ok_iff.2 ⟨hbaton, rfl⟩,
      readQuantity_eq_ok_iff.2 rfl, bind, Except.bind, hchild, pure, Except.pure]

theorem decodeMint_eq_ok_iff {t : TokenType} {k : MessageKind} {fields : List Bytes}
    {m : Message} :
    decodeMint t k fields = .ok m ↔
      ∃ (id : TokenId) (b : Option UInt8) (q : UInt64),
        fields = [id.bytes, Script.optionalByte b, Script.quantity q] ∧
        checkMintBaton b = .ok () ∧ m = ⟨t, k, some id, none, b, [q]⟩ := by
  constructor
  · intro h
    rw [decodeMint.eq_def] at h
    split at h
    next id baton quantity =>
      obtain ⟨baton, hbaton, h⟩ := bind_eq_ok_iff.1 h
      obtain ⟨id, hid, h⟩ := bind_eq_ok_iff.1 h
      obtain ⟨quantity, hquantity, h⟩ := bind_eq_ok_iff.1 h
      cases h
      obtain ⟨hbaton', rfl⟩ := readMintBaton_eq_ok_iff.1 hbaton
      rw [readTokenId_eq_ok_iff.1 hid, readQuantity_eq_ok_iff.1 hquantity]
      exact ⟨id, baton, quantity, rfl, hbaton', rfl⟩
    next => cases h
  · rintro ⟨id, b, q, rfl, hbaton, rfl⟩
    simp only [decodeMint, readMintBaton_eq_ok_iff.2 ⟨hbaton, rfl⟩, readTokenId_eq_ok_iff.2 rfl,
      readQuantity_eq_ok_iff.2 rfl, bind, Except.bind, pure, Except.pure]

theorem decodeSend_eq_ok_iff {t : TokenType} {k : MessageKind} {fields : List Bytes}
    {m : Message} :
    decodeSend t k fields = .ok m ↔
      ∃ (id : TokenId) (qs : List UInt64), fields = id.bytes :: qs.map Script.quantity ∧
        (1 ≤ qs.length ∧ qs.length ≤ 19) ∧ m = ⟨t, k, some id, none, none, qs⟩ := by
  constructor
  · intro h
    rw [decodeSend.eq_def] at h
    split at h
    next => cases h
    next id quantities =>
    split at h
    next => cases h
    next hcount =>
    obtain ⟨qs, hqs, h⟩ := bind_eq_ok_iff.1 h
    obtain ⟨id, hid, h⟩ := bind_eq_ok_iff.1 h
    cases h
    rw [mapM_readQuantity_eq_ok_iff] at hqs
    rw [readTokenId_eq_ok_iff.1 hid, hqs]
    rw [not_isEmpty_or_lt_iff, hqs, List.length_map] at hcount
    exact ⟨id, qs, rfl, hcount, rfl⟩
  · rintro ⟨id, qs, rfl, hcount, rfl⟩
    rw [← List.length_map (f := Script.quantity), ← not_isEmpty_or_lt_iff] at hcount
    simp only [decodeSend, if_neg hcount, mapM_readQuantity_eq_ok_iff.2 rfl,
      readTokenId_eq_ok_iff.2 rfl, bind, Except.bind, pure, Except.pure]

/-! ## Messages -/

/-- The chunks `cs` spell the message `m`. -/
inductive Spells : List Bytes → Message → Prop where
  | genesis {k : MessageKind} {g : Genesis} {ticker name url : Bytes}
      (operation : k.operation = .genesis) (decimals : g.decimals ≤ 9)
      (baton : ∀ v, g.mintBatonVout = some v → 2 ≤ v)
      (child : k.tokenType = .nftChild → g.IsIndivisible)
      (hticker : g.ticker = Utf8.decodeLossy ticker) (hname : g.name = Utf8.decodeLossy name)
      (hurl : g.documentUrl = Utf8.decodeLossy url) :
      Spells (lokadId :: [k.tokenType.byte] :: k.operation.keyword :: ticker :: name :: url ::
          fixedFields g)
        ⟨k.tokenType, k, none, some g.toTokenDetails, g.mintBatonVout, [g.initialQuantity]⟩
  | mint {k : MessageKind} {id : TokenId} {b : Option UInt8} {q : UInt64}
      (operation : k.operation = .mint) (baton : ∀ v, b = some v → 2 ≤ v) :
      Spells (lokadId :: [k.tokenType.byte] :: k.operation.keyword ::
          [id.bytes, Script.optionalByte b, Script.quantity q])
        ⟨k.tokenType, k, some id, none, b, [q]⟩
  | send {k : MessageKind} {id : TokenId} {qs : List UInt64} (operation : k.operation = .send)
      (count : 1 ≤ qs.length ∧ qs.length ≤ 19) :
      Spells (lokadId :: [k.tokenType.byte] :: k.operation.keyword :: id.bytes ::
          qs.map Script.quantity)
        ⟨k.tokenType, k, some id, none, none, qs⟩

/-- Reading the fields of an operation. -/
def decodeFields (k : MessageKind) (fields : List Bytes) : Except Error Message :=
  match k.operation with
  | .genesis => decodeGenesis k.tokenType k fields
  | .mint => decodeMint k.tokenType k fields
  | .send => decodeSend k.tokenType k fields

/-- The reader finds the type, the operation and the fields. -/
theorem ofChunks_eq_ok_iff_exists {cs : List Bytes} {m : Message} :
    ofChunks cs = .ok m ↔ ∃ (k : MessageKind) (fields : List Bytes),
      cs = lokadId :: [k.tokenType.byte] :: k.operation.keyword :: fields ∧
        decodeFields k fields = .ok m := by
  constructor
  · intro h
    rw [ofChunks.eq_def] at h
    split at h
    next => cases h
    next hlokad =>
    split at h
    next lokad tokenType keyword fields =>
      obtain ⟨t, ht, h⟩ := bind_eq_ok_iff.1 h
      obtain ⟨k, hk, hfields⟩ := bind_eq_ok_iff.1 h
      obtain ⟨rfl, rfl⟩ := readKind_eq_ok_iff.1 hk
      rw [not_not, List.head?_cons, Option.some.injEq] at hlokad
      rw [readTokenType_eq_ok_iff.1 ht, hlokad]
      exact ⟨k, fields, rfl, hfields⟩
    next => cases h
  · rintro ⟨k, fields, rfl, h⟩
    simp only [ofChunks, List.head?_cons, ne_eq, not_true_eq_false, if_false,
      readTokenType_eq_ok_iff.2 rfl, readKind_eq_ok_iff.2 ⟨rfl, rfl⟩, bind, Except.bind]
    exact h

/-- **The reader finds exactly what is spelled.** -/
theorem ofChunks_eq_ok_iff {cs : List Bytes} {m : Message} : ofChunks cs = .ok m ↔ Spells cs m := by
  rw [ofChunks_eq_ok_iff_exists]
  constructor
  · rintro ⟨k, fields, rfl, h⟩
    rw [decodeFields] at h
    cases hop : k.operation with
    | genesis =>
      rw [hop] at h
      obtain ⟨g, ticker, name, url, rfl, hticker, hname, hurl, hd, hb, hc, rfl⟩ :=
        decodeGenesis_eq_ok_iff.1 h
      rw [← hop]
      exact .genesis hop (checkDecimals_eq_ok_iff.1 hd) (checkMintBaton_eq_ok_iff.1 hb)
        (checkChild_eq_ok_iff.1 hc) hticker hname hurl
    | mint =>
      rw [hop] at h
      obtain ⟨id, b, q, rfl, hb, rfl⟩ := decodeMint_eq_ok_iff.1 h
      rw [← hop]
      exact .mint hop (checkMintBaton_eq_ok_iff.1 hb)
    | send =>
      rw [hop] at h
      obtain ⟨id, qs, rfl, hcount, rfl⟩ := decodeSend_eq_ok_iff.1 h
      rw [← hop]
      exact .send hop hcount
  · intro h
    cases h with
    | @genesis k g ticker name url operation decimals baton child hticker hname hurl =>
      refine ⟨k, _, rfl, ?_⟩
      rw [decodeFields, operation]
      exact decodeGenesis_eq_ok_iff.2 ⟨g, ticker, name, url, rfl, hticker, hname, hurl,
        checkDecimals_eq_ok_iff.2 decimals, checkMintBaton_eq_ok_iff.2 baton,
        checkChild_eq_ok_iff.2 child, rfl⟩
    | @mint k id b q operation baton =>
      refine ⟨k, _, rfl, ?_⟩
      rw [decodeFields, operation]
      exact decodeMint_eq_ok_iff.2 ⟨id, b, q, rfl, checkMintBaton_eq_ok_iff.2 baton, rfl⟩
    | @send k id qs operation count =>
      refine ⟨k, _, rfl, ?_⟩
      rw [decodeFields, operation]
      exact decodeSend_eq_ok_iff.2 ⟨id, qs, rfl, count, rfl⟩

/-- **A script is read as a message** if and only if it frames chunks that spell the message. -/
theorem decode_eq_ok_iff {s : Bytes} {m : Message} :
    decode s = .ok m ↔ ∃ cs, Script.Frames s cs ∧ Spells cs m := by
  constructor
  · intro h
    rw [decode] at h
    split at h
    next cs hcs => exact ⟨cs, Script.chunks_eq_ok_iff.1 hcs, ofChunks_eq_ok_iff.1 h⟩
    next => cases h
  · rintro ⟨cs, hcs, h⟩
    rw [decode, Script.chunks_eq_ok_iff.2 hcs]
    exact ofChunks_eq_ok_iff.2 h

theorem length_keyword_le (op : Operation) : op.keyword.length ≤ 7 := by
  cases op <;> decide

/-- What the chunks of a script spell is read from it, unless a field is too long to be pushed. -/
theorem decode_script {k : MessageKind} {fields : List Bytes} {m : Message}
    (h : ∀ f ∈ fields, f.length < 2 ^ 32)
    (hspells : Spells (lokadId :: [k.tokenType.byte] :: k.operation.keyword :: fields) m) :
    decode (script k.tokenType k.operation fields) = .ok m := by
  have hchunks : ∀ c ∈ lokadId :: [k.tokenType.byte] :: k.operation.keyword :: fields,
      c.length < 2 ^ 32 := by
    have hkeyword := length_keyword_le k.operation
    rw [List.forall_mem_cons, List.forall_mem_cons, List.forall_mem_cons, List.length_singleton]
    exact ⟨by decide, by decide, by omega, h⟩
  exact decode_eq_ok_iff.2 ⟨_, Script.frames_ofChunks hchunks, hspells⟩

end Message
end SimpleLedger
