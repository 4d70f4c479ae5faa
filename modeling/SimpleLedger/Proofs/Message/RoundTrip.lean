import SimpleLedger.Proofs.Message.Spelling
import SimpleLedger.Proofs.Utf8.Machine

/-!
# When a message is written, and that it reads back

For every operation there is one lemma that says when the encoder succeeds and what it writes
(`encodeGenesis_eq_ok_iff`, `encodeMint_eq_ok_iff`, `encodeSend_eq_ok_iff`), and one that says what
is read from it.  `encoding_exact` puts them together.

* `length_le_of_encodeGenesis`, `length_of_encodeSend`: how long it is.
* `withChange` holds the quantities of a SEND to several recipients, and by `encodePayments_eq` that
  is a SEND like any other.
-/

set_option autoImplicit false

namespace SimpleLedger
namespace Message

/-! ## GENESIS -/

theorem encodeGenesis_eq_ok_iff {t : TokenType} {g : Genesis} {s : Bytes} :
    encodeGenesis t g = .ok s ↔
      (g.decimals ≤ 9 ∧ (∀ v, g.mintBatonVout = some v → 2 ≤ v) ∧
        (t = .nftChild → g.IsIndivisible) ∧ (script t .genesis (genesisFields g)).length ≤ 223) ∧
      s = script t .genesis (genesisFields g) := by
  rw [← checkDecimals_eq_ok_iff, ← checkMintBaton_eq_ok_iff, ← checkChild_eq_ok_iff]
  constructor
  · intro h
    rw [encodeGenesis] at h
    obtain ⟨⟨⟩, hd, h⟩ := bind_eq_ok_iff.1 h
    obtain ⟨⟨⟩, hb, h⟩ := bind_eq_ok_iff.1 h
    obtain ⟨⟨⟩, hc, h⟩ := bind_eq_ok_iff.1 h
    dsimp only at h
    split at h
    next => cases h
    next hle =>
      cases h
      exact ⟨⟨hd, hb, hc, Nat.le_of_not_lt hle⟩, rfl⟩
  · rintro ⟨⟨hd, hb, hc, hle⟩, rfl⟩
    simp only [encodeGenesis, hd, hb, hc, bind, Except.bind]
    exact if_neg (Nat.not_lt.2 hle)

theorem length_le_of_encodeGenesis {t : TokenType} {g : Genesis} {s : Bytes}
    (h : encodeGenesis t g = .ok s) : s.length ≤ maxLength := by
  obtain ⟨⟨-, -, -, hle⟩, rfl⟩ := encodeGenesis_eq_ok_iff.1 h
  exact hle

/-- **A GENESIS reads back** with its texts. -/
theorem decode_genesis {t : TokenType} {g : Genesis} {s : Bytes} (h : encodeGenesis t g = .ok s) :
    ∃ k : MessageKind, (k.tokenType = t ∧ k.operation = .genesis) ∧
      decode s =
        .ok ⟨t, k, none, some g.toTokenDetails, g.mintBatonVout, [g.initialQuantity]⟩ := by
  obtain ⟨⟨hd, hb, hc, hle⟩, rfl⟩ := encodeGenesis_eq_ok_iff.1 h
  obtain ⟨k, rfl, hop⟩ := exists_kind_of_ne_mint t (nofun : Operation.genesis ≠ .mint)
  refine ⟨k, ⟨rfl, hop⟩, ?_⟩
  -- no field is longer than the script, which is short
  have hfields : ∀ f ∈ genesisFields g, f.length < 2 ^ 32 := by
    intro f hf
    have hlen := Script.length_le_length_ofChunks (List.mem_cons_of_mem lokadId
      (List.mem_cons_of_mem [k.tokenType.byte]
        (List.mem_cons_of_mem Operation.genesis.keyword hf)))
    rw [script] at hle
    omega
  rw [← hop]
  exact decode_script hfields (.genesis hop hd hb hc (Utf8.decodeLossy_encode _).symm
    (Utf8.decodeLossy_encode _).symm (Utf8.decodeLossy_encode _).symm)

/-- **The GENESIS of a child reads back** with its texts. -/
theorem decode_childGenesis {ticker name documentUrl : String} {s : Bytes}
    (h : encodeGenesis .nftChild (Genesis.child ticker name documentUrl) = .ok s) :
    decode s = .ok ⟨.nftChild, .nftChildGenesis, none, some ⟨ticker, name, documentUrl, none, 0⟩,
      none, [1]⟩ := by
  obtain ⟨k, ⟨htype, hop⟩, hs⟩ := decode_genesis h
  have hkind : k = .nftChildGenesis := by
    cases k <;> cases htype <;> cases hop
    rfl
  rw [hkind] at hs
  exact hs

/-! ## MINT -/

theorem length_optionalByte_le (b : Option UInt8) : (Script.optionalByte b).length ≤ 1 := by
  cases b with
  | none => exact Nat.zero_le 1
  | some v => exact Nat.le_refl 1

theorem encodeMint_eq_ok_iff {t : TokenType} {id : TokenId} {b : Option UInt8} {q : UInt64}
    {s : Bytes} :
    encodeMint t id b q = .ok s ↔
      (t ≠ .nftChild ∧ ∀ v, b = some v → 2 ≤ v) ∧
      s = script t .mint [id.bytes, Script.optionalByte b, Script.quantity q] := by
  rw [← checkMintBaton_eq_ok_iff, encodeMint]
  split
  next ht => exact iff_of_false nofun fun h => h.1.1 ht
  next ht =>
  constructor
  · intro h
    obtain ⟨⟨⟩, hb, h⟩ := bind_eq_ok_iff.1 h
    cases h
    exact ⟨⟨ht, hb⟩, rfl⟩
  · rintro ⟨⟨-, hb⟩, rfl⟩
    simp only [hb, bind, Except.bind, pure, Except.pure]

/-- **A MINT reads back.** -/
theorem decode_mint {t : TokenType} {id : TokenId} {b : Option UInt8} {q : UInt64} {s : Bytes}
    (h : encodeMint t id b q = .ok s) :
    ∃ k : MessageKind, (k.tokenType = t ∧ k.operation = .mint) ∧
      decode s = .ok ⟨t, k, some id, none, b, [q]⟩ := by
  obtain ⟨⟨ht, hb⟩, rfl⟩ := encodeMint_eq_ok_iff.1 h
  obtain ⟨k, rfl, hop⟩ := exists_kind_iff.2 fun h : t = .nftChild ∧ Operation.mint = .mint =>
    ht h.1
  refine ⟨k, ⟨rfl, hop⟩, ?_⟩
  have hfields : ∀ f ∈ [id.bytes, Script.optionalByte b, Script.quantity q],
      f.length < 2 ^ 32 := by
    have hlen := length_optionalByte_le b
    rw [List.forall_mem_cons, List.forall_mem_cons, List.forall_mem_singleton,
      TokenId.length_bytes, Script.length_quantity]
    omega
  rw [← hop]
  exact decode_script hfields (.mint hop hb)

/-! ## SEND -/

theorem encodeSend_eq_ok_iff {t : TokenType} {id : TokenId} {qs : List UInt64} {s : Bytes} :
    encodeSend t id qs = .ok s ↔
      (1 ≤ qs.length ∧ qs.length ≤ 19) ∧
      s = script t .send (id.bytes :: qs.map Script.quantity) := by
  rw [encodeSend]
  split
  next hc => exact iff_of_false (by simp) fun h => not_isEmpty_or_lt_iff.2 h.1 hc
  next hc =>
    rw [Except.ok.injEq, and_iff_right (not_isEmpty_or_lt_iff.1 hc)]
    exact eq_comm

/-- **A SEND reads back.** -/
theorem decode_send {t : TokenType} {id : TokenId} {qs : List UInt64} {s : Bytes}
    (h : encodeSend t id qs = .ok s) :
    ∃ k : MessageKind, (k.tokenType = t ∧ k.operation = .send) ∧
      decode s = .ok ⟨t, k, some id, none, none, qs⟩ := by
  obtain ⟨hcount, rfl⟩ := encodeSend_eq_ok_iff.1 h
  obtain ⟨k, rfl, hop⟩ := exists_kind_of_ne_mint t (nofun : Operation.send ≠ .mint)
  refine ⟨k, ⟨rfl, hop⟩, ?_⟩
  have hfields : ∀ f ∈ id.bytes :: qs.map Script.quantity, f.length < 2 ^ 32 := by
    rw [List.forall_mem_cons, List.forall_mem_map, id.length_bytes]
    exact ⟨by decide, fun q _ => by rw [Script.length_quantity]; decide⟩
  rw [← hop]
  exact decode_script hfields (.send hop hcount)

theorem length_flatMap_push_quantity (qs : List UInt64) :
    ((qs.map Script.quantity).flatMap Script.push).length = 9 * qs.length := by
  have hpush (q : UInt64) : (Script.push (Script.quantity q)).length = 9 := by
    rw [Script.push, List.length_append, Script.length_quantity]
    rfl
  rw [List.flatMap_map, List.length_flatMap, Nat.mul_comm]
  simp only [hpush, List.map_const', List.sum_replicate_nat]

/-- Every quantity adds nine bytes to a SEND. -/
theorem length_of_encodeSend {t : TokenType} {id : TokenId} {qs : List UInt64} {s : Bytes}
    (h : encodeSend t id qs = .ok s) : s.length = 46 + 9 * qs.length := by
  obtain ⟨-, rfl⟩ := encodeSend_eq_ok_iff.1 h
  have hid : (Script.push id.bytes).length = 33 := by
    rw [Script.push, List.length_append, TokenId.length_bytes]
    rfl
  have hhead : (Script.push lokadId).length + (Script.push [t.byte]).length +
      (Script.push Operation.send.keyword).length = 12 := rfl
  simp only [script, Script.ofChunks, List.flatMap_cons, List.length_cons, List.length_append,
    length_flatMap_push_quantity, hid]
  omega

/-- The quantities of a SEND to several recipients: theirs in order, then the change, unless it is
zero. -/
def withChange (recipients : List UInt64) : Option UInt64 → List UInt64
  | none => recipients
  | some change => if 0 < change then recipients ++ [change] else recipients

theorem withChange_some (recipients : List UInt64) (change : UInt64) :
    withChange recipients (some change) = recipients ++ if 0 < change then [change] else [] := by
  rw [withChange]
  split
  next => rfl
  next => exact (List.append_nil recipients).symm

/-- Change is a single quantity, if it is there at all. -/
theorem length_withChange (recipients : List UInt64) (change : Option UInt64) :
    recipients.length ≤ (withChange recipients change).length ∧
      (withChange recipients change).length ≤ recipients.length + 1 := by
  cases change with
  | none => exact ⟨Nat.le_refl _, Nat.le_succ _⟩
  | some change =>
    rw [withChange_some, List.length_append]
    split <;> simp

theorem withChange_eq (recipients : List UInt64) (change : Option UInt64) :
    withChange recipients change = recipients ++ (change.filter (0 < ·)).toList := by
  cases change with
  | none => exact (List.append_nil recipients).symm
  | some change =>
    rw [withChange_some, Option.filter_some]
    simp only [decide_eq_true_eq]
    split <;> rfl

theorem encodePayments_eq (t : TokenType) (id : TokenId) (recipients : List UInt64)
    (change : Option UInt64) :
    encodePayments t id recipients change = encodeSend t id (withChange recipients change) := by
  rw [encodePayments, withChange_eq]

/-! ## All encoders -/

/-- **What is written reads back, and what can be written.**  Each encoder succeeds exactly on the
arguments that its fields allow, and what it writes is read as the message that it was given. -/
theorem encoding_exact (t : TokenType) (id : TokenId) :
    (∀ g, ((∃ s, encodeGenesis t g = .ok s) ↔
        g.decimals ≤ 9 ∧ (∀ v, g.mintBatonVout = some v → 2 ≤ v) ∧
          (t = .nftChild → g.decimals = 0 ∧ g.mintBatonVout = none ∧ g.initialQuantity = 1) ∧
          (script t .genesis (genesisFields g)).length ≤ 223) ∧
      ∀ s, encodeGenesis t g = .ok s →
        ∃ k : MessageKind, (k.tokenType = t ∧ k.operation = .genesis) ∧ decode s =
          .ok ⟨t, k, none, some g.toTokenDetails, g.mintBatonVout, [g.initialQuantity]⟩) ∧
    (∀ ticker name url s, encodeChildGenesis ticker name url = .ok s → decode s =
      .ok ⟨.nftChild, .nftChildGenesis, none, some ⟨ticker, name, url, none, 0⟩, none, [1]⟩) ∧
    (∀ b q, ((∃ s, encodeMint t id b q = .ok s) ↔
        t ≠ .nftChild ∧ ∀ v, b = some v → 2 ≤ v) ∧
      ∀ s, encodeMint t id b q = .ok s →
        ∃ k : MessageKind, (k.tokenType = t ∧ k.operation = .mint) ∧
          decode s = .ok ⟨t, k, some id, none, b, [q]⟩) ∧
    (∀ qs, ((∃ s, encodeSend t id qs = .ok s) ↔ 1 ≤ qs.length ∧ qs.length ≤ 19) ∧
      ∀ s, encodeSend t id qs = .ok s →
        ∃ k : MessageKind, (k.tokenType = t ∧ k.operation = .send) ∧
          decode s = .ok ⟨t, k, some id, none, none, qs⟩) ∧
    ∀ recipients change, ((∃ s, encodePayments t id recipients change = .ok s) ↔
        1 ≤ (withChange recipients change).length ∧
          (withChange recipients change).length ≤ 19) ∧
      ∀ s, encodePayments t id recipients change = .ok s →
        ∃ k : MessageKind, (k.tokenType = t ∧ k.operation = .send) ∧
          decode s = .ok ⟨t, k, some id, none, none, withChange recipients change⟩ := by
  refine ⟨fun g => ⟨?_, fun s h => decode_genesis h⟩,
    fun ticker name url s h => decode_childGenesis h, fun b q => ⟨?_, fun s h => decode_mint h⟩,
    fun qs => ⟨?_, fun s h => decode_send h⟩, fun recipients change => ?_⟩
  · simp only [encodeGenesis_eq_ok_iff, exists_and_left, exists_eq, and_true]
    exact Iff.rfl
  · simp only [encodeMint_eq_ok_iff, exists_and_left, exists_eq, and_true]
  · simp only [encodeSend_eq_ok_iff, exists_and_left, exists_eq, and_true]
  · rw [encodePayments_eq]
    refine ⟨?_, fun s h => decode_send h⟩
    simp only [encodeSend_eq_ok_iff, exists_and_left, exists_eq, and_true]

/-- A mint of 258 units that passes the right to mint on. -/
theorem encoding_exact_sample :
    ∃ s, encodeMint .nftParent ⟨⟨List.replicate 32 7, rfl⟩⟩ (some 2) 258 = .ok s ∧
      decode s = .ok ⟨.nftParent, .nftParentMint, some ⟨⟨List.replicate 32 7, rfl⟩⟩, none, some 2,
        [258]⟩ := by
  obtain ⟨-, -, hmint, -⟩ := encoding_exact .nftParent ⟨⟨List.replicate 32 7, rfl⟩⟩
  obtain ⟨hiff, hread⟩ := hmint (some 2) 258
  obtain ⟨s, hs⟩ := hiff.2 ⟨nofun, fun _ hv => Option.some.inj hv ▸ UInt8.le_refl 2⟩
  obtain ⟨k, hk, hdecode⟩ := hread s hs
  have hkind : MessageKind.of? .nftParent .mint = some .nftParentMint := rfl
  rw [MessageKind.of?_eq_some_iff.2 hk] at hkind
  cases hkind
  exact ⟨s, hs, hdecode⟩

end Message
end SimpleLedger
