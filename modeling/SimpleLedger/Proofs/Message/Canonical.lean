import SimpleLedger.Proofs.Message.RoundTrip
import SimpleLedger.Proofs.Utf8.Lossy

/-!
# Writing again what was read

A message that was read can be written again, and the result reads as the same message.  Only a
GENESIS may get too long on the way, since the replacement character takes three bytes and may
stand for a single one.

`reencoding_canonical`: what is written for a MINT or a SEND is the shortest script of that message.
-/

set_option autoImplicit false

namespace SimpleLedger
namespace Message

theorem kind_unique {k k' : MessageKind} (ht : k.tokenType = k'.tokenType)
    (hop : k.operation = k'.operation) : k = k' := by
  have h := MessageKind.of?_eq_some_iff.2 ⟨ht, hop⟩
  rw [MessageKind.of?_eq_some_iff.2 ⟨rfl, rfl⟩] at h
  exact (Option.some.inj h).symm

/-- The script that is written for the chunks of a message is the shortest script of it. -/
theorem Spells.decode_ofChunks {s : Bytes} {cs : List Bytes} {m : Message} (h : Spells cs m)
    (hcs : Script.Frames s cs) :
    decode (Script.ofChunks cs) = .ok m ∧ (Script.ofChunks cs).length ≤ s.length ∧
      ((Script.ofChunks cs).length = s.length → Script.ofChunks cs = s) := by
  refine ⟨decode_eq_ok_iff.2 ⟨cs, hcs.frames_ofChunks, h⟩, ?_⟩
  rcases hcs.eq_or_length_lt with rfl | hlt
  · exact ⟨Nat.le_refl _, fun _ => rfl⟩
  · exact ⟨Nat.le_of_lt hlt, fun heq => absurd heq (Nat.ne_of_lt hlt)⟩

/-- A GENESIS whose fields are in order is written, or it is too long. -/
theorem encodeGenesis_of_checks {t : TokenType} {g : Genesis} (hd : g.decimals ≤ 9)
    (hb : ∀ v, g.mintBatonVout = some v → 2 ≤ v) (hc : t = .nftChild → g.IsIndivisible) :
    let canonical := script t .genesis (genesisFields g)
    (223 < canonical.length ∧ encodeGenesis t g = .error (.tooLong canonical.length)) ∨
      (canonical.length ≤ 223 ∧ encodeGenesis t g = .ok canonical) := by
  intro canonical
  by_cases hle : canonical.length ≤ 223
  · exact .inr ⟨hle, encodeGenesis_eq_ok_iff.2 ⟨⟨hd, hb, hc, hle⟩, rfl⟩⟩
  · refine .inl ⟨Nat.lt_of_not_le hle, ?_⟩
    simp only [encodeGenesis, checkDecimals_eq_ok_iff.2 hd, checkMintBaton_eq_ok_iff.2 hb,
      checkChild_eq_ok_iff.2 hc, bind, Except.bind]
    exact if_pos (Nat.lt_of_not_le hle)

/-- **A message that was read is written again as the same message.**  No check of a field fails.
For a MINT and a SEND the script gets no longer, and stays as long only if it stays the same.  A
GENESIS may get too long, and this is then the only error.  Its texts need not have been UTF-8: they
are written as they were read, with a replacement character for each broken piece. -/
theorem reencoding_canonical {s : Bytes} {m : Message} (h : decode s = .ok m) :
    match m.kind.operation with
    | .genesis => ∃ d q ticker name url others, m.details = some d ∧ m.quantities = [q] ∧
        Script.Frames s (lokadId :: [m.tokenType.byte] :: Operation.genesis.keyword :: ticker ::
          name :: url :: others) ∧
        Utf8.ReadsAs ticker d.ticker.toList ∧ Utf8.ReadsAs name d.name.toList ∧
        Utf8.ReadsAs url d.documentUrl.toList ∧
        let canonical := script m.tokenType .genesis (genesisFields ⟨d, m.mintBatonVout, q⟩)
        (223 < canonical.length ∧ encodeGenesis m.tokenType ⟨d, m.mintBatonVout, q⟩ =
            .error (.tooLong canonical.length)) ∨
          (canonical.length ≤ 223 ∧
            encodeGenesis m.tokenType ⟨d, m.mintBatonVout, q⟩ = .ok canonical ∧
            decode canonical = .ok m)
    | .mint => ∃ id q, m.tokenId = some id ∧ m.quantities = [q] ∧
        ∃ s', encodeMint m.tokenType id m.mintBatonVout q = .ok s' ∧ decode s' = .ok m ∧
          s'.length ≤ s.length ∧ (s'.length = s.length → s' = s)
    | .send => ∃ id, m.tokenId = some id ∧
        ∃ s', encodeSend m.tokenType id m.quantities = .ok s' ∧ decode s' = .ok m ∧
          s'.length ≤ s.length ∧ (s'.length = s.length → s' = s) := by
  obtain ⟨cs, hcs, hspells⟩ := decode_eq_ok_iff.1 h
  cases hspells with
  | @genesis k g ticker name url operation decimals baton child hticker hname hurl =>
    rw [operation] at hcs ⊢
    refine ⟨g.toTokenDetails, g.initialQuantity, ticker, name, url, _, rfl, rfl, hcs,
      Utf8.decodeLossy_eq_iff.1 hticker.symm, Utf8.decodeLossy_eq_iff.1 hname.symm,
      Utf8.decodeLossy_eq_iff.1 hurl.symm, ?_⟩
    rcases encodeGenesis_of_checks decimals baton child with hlong | ⟨hle, hs⟩
    · exact .inl hlong
    · obtain ⟨k', ⟨ht, hop⟩, hdecode⟩ := decode_genesis hs
      rw [kind_unique ht (hop.trans operation.symm)] at hdecode
      exact .inr ⟨hle, hs, hdecode⟩
  | @mint k id b q operation baton =>
    have hcanonical := Spells.decode_ofChunks (.mint operation baton) hcs
    rw [operation] at hcanonical ⊢
    exact ⟨id, q, rfl, rfl, _,
      encodeMint_eq_ok_iff.2 ⟨⟨tokenType_ne_of_mint operation, baton⟩, rfl⟩, hcanonical⟩
  | @send k id qs operation count =>
    have hcanonical := Spells.decode_ofChunks (.send operation count) hcs
    rw [operation] at hcanonical ⊢
    exact ⟨id, rfl, _, encodeSend_eq_ok_iff.2 ⟨count, rfl⟩, hcanonical⟩

/-- A GENESIS whose ticker is a byte that begins no character, and then an A. -/
def brokenGenesis : Bytes :=
  [0x6a, 4, 0x53, 0x4c, 0x50, 0, 1, 0x01, 7, 0x47, 0x45, 0x4e, 0x45, 0x53, 0x49, 0x53, 2, 0xff,
    0x41, 0x4c, 0, 0x4c, 0, 0x4c, 0, 1, 0, 0x4c, 0, 8, 0, 0, 0, 0, 0, 0, 0, 5]

/-- Its ticker is written with the replacement character. -/
theorem reencoding_canonical_sample :
    ∃ s m, decode brokenGenesis = .ok m ∧
      encodeGenesis .fungible ⟨⟨"\uFFFDA", "", "", none, 0⟩, none, 5⟩ = .ok s ∧
      decode s = .ok m := by
  have h : decode brokenGenesis =
      .ok ⟨.fungible, .genesis, none, some ⟨"\uFFFDA", "", "", none, 0⟩, none, [5]⟩ := by cbv
  obtain ⟨d, q, ticker, name, url, others, hd, hq, -, -, -, -, hwritten⟩ := reencoding_canonical h
  cases hd
  cases hq
  rcases hwritten with ⟨hlong, -⟩ | ⟨-, hs, hread⟩
  · exact absurd hlong (by decide)
  · exact ⟨_, _, h, hs, hread⟩

end Message
end SimpleLedger
