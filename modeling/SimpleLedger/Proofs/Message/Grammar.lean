import SimpleLedger.Proofs.Message.Spelling

/-!
# The grammar of messages

Which lists of chunks are messages, in terms of bytes and lengths only: `Grammatical cs`.  And what
the message that is read has to do with its chunks: `Describes cs m`.

`grammar_exact`: a byte string is read as a message if and only if it frames chunks that are
grammatical, and the message then describes them.
-/

set_option autoImplicit false

namespace SimpleLedger
namespace Message

/-! ## The grammar -/

/-- ASCII text as bytes. -/
def ascii (s : String) : Bytes := s.toList.map fun c => UInt8.ofNat c.toNat

/-- The right to mint: nobody gets it, or an output after the first two. -/
def IsBaton (c : Bytes) : Prop := c = [] ∨ ∃ v : UInt8, 2 ≤ v ∧ c = [v]

/-- The lists of chunks that are messages. -/
inductive Grammatical : List Bytes → Prop where
  | genesis {t d : UInt8} {ticker name url hash baton quantity : Bytes}
      (ht : t = 0x01 ∨ t = 0x81 ∨ t = 0x41) (hhash : hash.length = 0 ∨ hash.length = 32)
      (hd : d ≤ 9) (hbaton : IsBaton baton) (hquantity : quantity.length = 8)
      (hchild : t = 0x41 → d = 0 ∧ baton = [] ∧ Bytes.ofBigEndian quantity = 1) :
      Grammatical [ascii "SLP\x00", [t], ascii "GENESIS", ticker, name, url, hash, [d], baton,
        quantity]
  | mint {t : UInt8} {id baton quantity : Bytes} (ht : t = 0x01 ∨ t = 0x81) (hid : id.length = 32)
      (hbaton : IsBaton baton) (hquantity : quantity.length = 8) :
      Grammatical [ascii "SLP\x00", [t], ascii "MINT", id, baton, quantity]
  | send {t : UInt8} {id : Bytes} {quantities : List Bytes} (ht : t = 0x01 ∨ t = 0x81 ∨ t = 0x41)
      (hid : id.length = 32) (hcount : 1 ≤ quantities.length ∧ quantities.length ≤ 19)
      (hquantities : ∀ q ∈ quantities, q.length = 8) :
      Grammatical (ascii "SLP\x00" :: [t] :: ascii "SEND" :: id :: quantities)

/-- The chunks that hold quantities. -/
def quantityChunks : Operation → List Bytes → List Bytes
  | .genesis, cs => cs.drop 9
  | .mint, cs => cs.drop 5
  | .send, cs => cs.drop 4

/-- What a message has to do with the chunks from which it was read. -/
structure Describes (cs : List Bytes) (m : Message) : Prop where
  tokenType : cs[1]? = some [m.tokenType.byte]
  keyword : cs[2]? = some m.kind.operation.keyword
  kind : m.kind.tokenType = m.tokenType
  tokenId_eq_none_iff : m.tokenId = none ↔ m.kind.operation = .genesis
  details_ne_none_iff : m.details ≠ none ↔ m.kind.operation = .genesis
  mintBaton_of_send : m.kind.operation = .send → m.mintBatonVout = none
  quantities : m.quantities.map UInt64.toNat =
    (quantityChunks m.kind.operation cs).map Bytes.ofBigEndian

/-! ## Chunks and values -/

theorem lokadId_eq_ascii : lokadId = ascii "SLP\x00" := by decide

theorem keyword_genesis : Operation.genesis.keyword = ascii "GENESIS" := by decide

theorem keyword_mint : Operation.mint.keyword = ascii "MINT" := by decide

theorem keyword_send : Operation.send.keyword = ascii "SEND" := by decide

theorem exists_tokenType_iff {b : UInt8} :
    (∃ t : TokenType, t.byte = b) ↔ b = 0x01 ∨ b = 0x81 ∨ b = 0x41 := by
  constructor
  · rintro ⟨t, rfl⟩
    cases t <;> decide
  · rintro (rfl | rfl | rfl)
    · exact ⟨.fungible, rfl⟩
    · exact ⟨.nftParent, rfl⟩
    · exact ⟨.nftChild, rfl⟩

theorem byte_eq_nftChild_iff {t : TokenType} : t.byte = 0x41 ↔ t = .nftChild := by
  cases t <;> decide

theorem byte_ne_nftChild_iff {t : TokenType} :
    t.byte = 0x01 ∨ t.byte = 0x81 ↔ t ≠ .nftChild := by
  cases t <;> decide

theorem isBaton_iff {c : Bytes} :
    IsBaton c ↔ ∃ b, (∀ v, b = some v → 2 ≤ v) ∧ c = Script.optionalByte b := by
  constructor
  · rintro (rfl | ⟨v, hv, rfl⟩)
    · exact ⟨none, nofun, rfl⟩
    · exact ⟨some v, fun _ h => Option.some.inj h ▸ hv, rfl⟩
  · rintro ⟨_ | v, hb, rfl⟩
    · exact .inl rfl
    · exact .inr ⟨v, hb v rfl, rfl⟩

theorem optionalByte_eq_nil_iff {b : Option UInt8} : Script.optionalByte b = [] ↔ b = none := by
  cases b with
  | none => exact iff_of_true rfl rfl
  | some v => exact iff_of_false (List.cons_ne_nil v []) nofun

theorem exists_digest_iff {c : Bytes} :
    (∃ d : Option Digest, c = (d.map Digest.bytes).getD []) ↔ c.length = 0 ∨ c.length = 32 := by
  constructor
  · rintro ⟨_ | d, rfl⟩
    · exact .inl rfl
    · exact .inr d.length_bytes
  · rintro (h | h)
    · exact ⟨none, List.length_eq_zero_iff.1 h⟩
    · exact ⟨some ⟨c, h⟩, rfl⟩

theorem exists_tokenId_iff {c : Bytes} : (∃ id : TokenId, c = id.bytes) ↔ c.length = 32 := by
  constructor
  · rintro ⟨id, rfl⟩
    exact id.length_bytes
  · intro h
    exact ⟨⟨⟨c, h⟩⟩, rfl⟩

theorem exists_quantities_iff {cs : List Bytes} :
    (∃ qs, cs = List.map Script.quantity qs) ↔ ∀ c ∈ cs, c.length = 8 := by
  constructor
  · rintro ⟨qs, rfl⟩ c hc
    obtain ⟨q, -, rfl⟩ := List.mem_map.1 hc
    exact Script.length_quantity q
  · intro h
    refine ⟨cs.map fun c => UInt64.ofNat (Bytes.ofBigEndian c), ?_⟩
    rw [List.map_map]
    calc
      cs = cs.map id := (List.map_id cs).symm
      _ = _ := List.map_congr_left fun c hc => (Script.quantity_ofNat_ofBigEndian (h c hc)).symm

/-! ## Spelling and grammar -/

theorem Spells.grammatical {cs : List Bytes} {m : Message} (h : Spells cs m) :
    Grammatical cs := by
  cases h with
  | @genesis k g ticker name url operation decimals baton child =>
    rw [lokadId_eq_ascii, operation, keyword_genesis]
    refine .genesis (exists_tokenType_iff.1 ⟨_, rfl⟩) (exists_digest_iff.1 ⟨_, rfl⟩) decimals
      (isBaton_iff.2 ⟨_, baton, rfl⟩) (Script.length_quantity _) fun ht => ?_
    obtain ⟨hd, hb, hq⟩ := child (byte_eq_nftChild_iff.1 ht)
    rw [hd, hb, hq]
    exact ⟨rfl, rfl, Script.ofBigEndian_quantity 1⟩
  | @mint k id b q operation baton =>
    rw [lokadId_eq_ascii, operation, keyword_mint]
    exact .mint (byte_ne_nftChild_iff.2 (tokenType_ne_of_mint operation)) id.length_bytes
      (isBaton_iff.2 ⟨_, baton, rfl⟩) (Script.length_quantity q)
  | @send k id qs operation count =>
    rw [lokadId_eq_ascii, operation, keyword_send]
    refine .send (exists_tokenType_iff.1 ⟨_, rfl⟩) id.length_bytes ?_
      (exists_quantities_iff.1 ⟨qs, rfl⟩)
    rwa [List.length_map]

theorem Grammatical.exists_spells {cs : List Bytes} (h : Grammatical cs) :
    ∃ m, Spells cs m := by
  cases h with
  | @genesis t d ticker name url hash baton quantity ht hhash hd hbaton hquantity hchild =>
    obtain ⟨t, rfl⟩ := exists_tokenType_iff.2 ht
    obtain ⟨hash, rfl⟩ := exists_digest_iff.2 hhash
    obtain ⟨baton, hb, rfl⟩ := isBaton_iff.1 hbaton
    obtain ⟨k, rfl, hop⟩ := exists_kind_of_ne_mint t (by decide : Operation.genesis ≠ .mint)
    let g : Genesis :=
      ⟨⟨Utf8.decodeLossy ticker, Utf8.decodeLossy name, Utf8.decodeLossy url, hash, d⟩, baton,
        UInt64.ofNat (Bytes.ofBigEndian quantity)⟩
    have hindivisible : k.tokenType = .nftChild → g.IsIndivisible := by
      intro ht
      obtain ⟨hd, hb, hq⟩ := hchild (byte_eq_nftChild_iff.2 ht)
      exact ⟨hd, optionalByte_eq_nil_iff.1 hb, congrArg UInt64.ofNat hq⟩
    have h : Spells _ _ := @Spells.genesis k g ticker name url hop hd hb hindivisible rfl rfl rfl
    rw [fixedFields, lokadId_eq_ascii, hop, keyword_genesis,
      Script.quantity_ofNat_ofBigEndian hquantity] at h
    exact ⟨_, h⟩
  | @mint t id baton quantity ht hid hbaton hquantity =>
    obtain ⟨t, rfl⟩ := exists_tokenType_iff.2 (or_assoc.1 (.inl ht))
    obtain ⟨id, rfl⟩ := exists_tokenId_iff.2 hid
    obtain ⟨baton, hb, rfl⟩ := isBaton_iff.1 hbaton
    obtain ⟨k, rfl, hop⟩ := exists_kind_iff.2 fun h => byte_ne_nftChild_iff.1 ht h.1
    have h := @Spells.mint k id baton (UInt64.ofNat (Bytes.ofBigEndian quantity)) hop hb
    rw [lokadId_eq_ascii, hop, keyword_mint, Script.quantity_ofNat_ofBigEndian hquantity] at h
    exact ⟨_, h⟩
  | @send t id quantities ht hid hcount hquantities =>
    obtain ⟨t, rfl⟩ := exists_tokenType_iff.2 ht
    obtain ⟨id, rfl⟩ := exists_tokenId_iff.2 hid
    obtain ⟨qs, rfl⟩ := exists_quantities_iff.2 hquantities
    obtain ⟨k, rfl, hop⟩ := exists_kind_of_ne_mint t (by decide : Operation.send ≠ .mint)
    rw [List.length_map] at hcount
    have h := @Spells.send k id qs hop hcount
    rw [lokadId_eq_ascii, hop, keyword_send] at h
    exact ⟨_, h⟩

theorem map_ofBigEndian_quantity (qs : List UInt64) :
    (qs.map Script.quantity).map Bytes.ofBigEndian = qs.map UInt64.toNat := by
  rw [List.map_map]
  exact List.map_congr_left fun q _ => Script.ofBigEndian_quantity q

theorem Spells.describes {cs : List Bytes} {m : Message} (h : Spells cs m) : Describes cs m := by
  cases h with
  | @genesis k g ticker name url operation =>
    refine ⟨rfl, rfl, rfl, iff_of_true rfl operation, iff_of_true nofun operation, ?_, ?_⟩
    · intro hop
      rw [operation] at hop
      cases hop
    · rw [operation]
      exact (map_ofBigEndian_quantity [g.initialQuantity]).symm
  | @mint k id b q operation =>
    have hne : k.operation ≠ .genesis := by rw [operation]; nofun
    refine ⟨rfl, rfl, rfl, iff_of_false nofun hne, iff_of_false (fun h => h rfl) hne, ?_, ?_⟩
    · intro hop
      rw [operation] at hop
      cases hop
    · rw [operation]
      exact (map_ofBigEndian_quantity [q]).symm
  | @send k id qs operation =>
    have hne : k.operation ≠ .genesis := by rw [operation]; nofun
    refine ⟨rfl, rfl, rfl, iff_of_false nofun hne, iff_of_false (fun h => h rfl) hne,
      fun _ => rfl, ?_⟩
    rw [operation]
    exact (map_ofBigEndian_quantity qs).symm

/-- **The reader accepts exactly the grammar.**  A byte string is read as a message if and only if
it frames grammatical chunks, with pushes of any form.  The message has the type, the operation
and the quantities that its chunks say. -/
theorem grammar_exact :
    (∀ s, (∃ m, decode s = .ok m) ↔ ∃ cs, Script.Frames s cs ∧ Grammatical cs) ∧
    ∀ s m cs, decode s = .ok m → Script.Frames s cs → Describes cs m := by
  refine ⟨fun s => ⟨?_, ?_⟩, fun s m cs h hcs => ?_⟩
  · rintro ⟨m, h⟩
    obtain ⟨cs, hcs, h⟩ := decode_eq_ok_iff.1 h
    exact ⟨cs, hcs, h.grammatical⟩
  · rintro ⟨cs, hcs, h⟩
    obtain ⟨m, h⟩ := h.exists_spells
    exact ⟨m, decode_eq_ok_iff.2 ⟨cs, hcs, h⟩⟩
  · obtain ⟨cs', hcs', h⟩ := decode_eq_ok_iff.1 h
    -- The framing decides the chunks: `cs` are the ones that were read.
    rw [← Script.chunks_eq_ok_iff] at hcs hcs'
    cases hcs.symm.trans hcs'
    exact h.describes

/-- A SEND of 258 units, with the type and the quantity pushed in longer ways than needed. -/
def roundaboutSend : Bytes :=
  [0x6a, 4, 0x53, 0x4c, 0x50, 0, 0x4c, 1, 0x01, 4, 0x53, 0x45, 0x4e, 0x44, 32] ++
    List.replicate 32 7 ++ [0x4d, 8, 0, 0, 0, 0, 0, 0, 0, 1, 2]

theorem grammar_exact_sample :
    ∃ m cs, decode roundaboutSend = .ok m ∧ m.quantities = [258] ∧
      Script.Frames roundaboutSend cs ∧ Describes cs m := by
  obtain ⟨m, h, hm⟩ : ∃ m, decode roundaboutSend = .ok m ∧ m.quantities = [258] :=
    ⟨⟨.fungible, .send, some ⟨⟨List.replicate 32 7, rfl⟩⟩, none, none, [258]⟩, by cbv, rfl⟩
  obtain ⟨hiff, hdescribes⟩ := grammar_exact
  obtain ⟨cs, hcs, -⟩ := (hiff roundaboutSend).1 ⟨m, h⟩
  exact ⟨m, cs, h, hm, hcs, hdescribes roundaboutSend m cs h hcs⟩

end Message
end SimpleLedger
