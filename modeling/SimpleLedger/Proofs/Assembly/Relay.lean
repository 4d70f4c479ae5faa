import SimpleLedger.Proofs.Assembly.Genesis
import SimpleLedger.Proofs.Assembly.Send
import SimpleLedger.Proofs.Fees

/-!
# Scripts that are relayed

Only a GENESIS is checked for its length.  That a MINT and a SEND are short enough comes of the
lengths of their fields and of the number of quantities.

* `Script.Relayable` is what a script has to be like to be passed on.
* `Script.length_ofChunks_le`: short chunks cost two bytes each on top of their own.
* `Fees.exists_messageSize?_default`: the estimate for the output of a SEND is its script and nine
  bytes around it.
* `Assembly.scripts_relayable`: all that the encoders write is relayable, and so is the first output
  of every transaction.
-/

set_option autoImplicit false

namespace SimpleLedger

/-! ## Scripts -/

namespace Script

/-- Nodes pass a script on: it is not too long, and nothing but pushes follow the opcode. -/
structure Relayable (s : Bytes) : Prop where
  length_le : s.length ≤ 223
  opcode : s.head? = some 0x6a
  pushes : ∃ cs, chunks s = .ok cs

/-- Of a script that was written only the length is in question. -/
theorem relayable_ofChunks {cs : List Bytes} (h : (ofChunks cs).length ≤ 223) :
    Relayable (ofChunks cs) where
  length_le := h
  opcode := rfl
  pushes := by
    refine ⟨cs, chunks_eq_ok_iff.2 (frames_ofChunks fun c hc => ?_)⟩
    have hlen := length_le_length_ofChunks hc
    omega

theorem length_push_le {c : Bytes} (h : c.length ≤ 255) : (push c).length ≤ c.length + 2 := by
  rw [push, List.length_append, length_header]
  split_ifs <;> omega

theorem length_ofChunks_le {cs : List Bytes} (h : ∀ c ∈ cs, c.length ≤ 255) :
    (ofChunks cs).length ≤ 1 + (cs.map fun c => c.length + 2).sum := by
  rw [ofChunks, List.length_cons, Nat.add_comm]
  apply Nat.add_le_add_left
  induction cs with
  | nil => exact Nat.le_refl 0
  | cons c cs ih =>
    rw [List.forall_mem_cons] at h
    rw [List.flatMap_cons, List.length_append, List.map_cons, List.sum_cons]
    exact Nat.add_le_add (length_push_le h.1) (ih h.2)

end Script

/-! ## The estimate -/

/-- The default estimate for the output that sends `n` quantities. -/
theorem Fees.exists_messageSize?_default {n : Nat} (hn : n ≤ 2 ^ 21) :
    ∃ size, ({} : Fees).messageSize? n = some size ∧ size.toInt = 55 + 9 * n := by
  obtain ⟨size, hsize, -, -⟩ := modest_default.within_messageSize? hn
  have htoInt : size.toInt = 55 + n * 9 := toInt_of_messageSize? (by omega) hsize
  exact ⟨size, hsize, by omega⟩

/-! ## Messages -/

namespace Message

open Script (Relayable)

variable {t : TokenType} {id : TokenId} {s : Bytes}

/-- The length of a SEND with `n` quantities, which is what is estimated for its output without the
nine bytes around it. -/
def HasSendLength (n : Nat) (s : Bytes) : Prop :=
  s.length = 46 + 9 * n ∧
    ∃ size, ({} : Fees).messageSize? n = some size ∧ size.toInt = s.length + 9

theorem relayable_of_encodeGenesis {g : Genesis} (h : encodeGenesis t g = .ok s) :
    Relayable s := by
  obtain ⟨⟨-, -, -, hle⟩, rfl⟩ := encodeGenesis_eq_ok_iff.1 h
  exact Script.relayable_ofChunks hle

theorem relayable_of_encodeMint {b : Option UInt8} {q : UInt64}
    (h : encodeMint t id b q = .ok s) : Relayable s := by
  obtain ⟨-, rfl⟩ := encodeMint_eq_ok_iff.1 h
  have hbaton := length_optionalByte_le b
  have hlen : lokadId.length = 4 ∧ Operation.mint.keyword.length = 4 := by decide
  have hchunks : ∀ c ∈ [lokadId, [t.byte], Operation.mint.keyword, id.bytes,
      Script.optionalByte b, Script.quantity q], c.length ≤ 255 := by
    simp only [List.forall_mem_cons, List.length_singleton, TokenId.length_bytes,
      Script.length_quantity, hlen]
    refine ⟨by decide, by decide, by decide, by decide, by omega, by decide, nofun⟩
  have hle := Script.length_ofChunks_le hchunks
  simp only [List.map_cons, List.map_nil, List.sum_cons, List.sum_nil, List.length_singleton,
    TokenId.length_bytes, Script.length_quantity, hlen] at hle
  rw [script]
  exact Script.relayable_ofChunks (by omega)

/-- There are never too many quantities for a SEND to be relayed. -/
theorem relayable_of_encodeSend {qs : List UInt64} (h : encodeSend t id qs = .ok s) :
    Relayable s ∧ HasSendLength qs.length s := by
  have hlength := length_of_encodeSend h
  obtain ⟨⟨-, hcount⟩, rfl⟩ := encodeSend_eq_ok_iff.1 h
  obtain ⟨size, hsize, htoInt⟩ := Fees.exists_messageSize?_default (n := qs.length) (by omega)
  refine ⟨Script.relayable_ofChunks ?_, hlength, size, hsize, ?_⟩
  · rw [script] at hlength
    omega
  · rw [hlength, htoInt]
    omega

end Message

/-! ## Transactions -/

/-- The first output is a message that is relayed, and it is the one that was encoded. -/
structure Assembled.CarriesRelayable {Summary : Type} (built : Assembled Summary) : Prop where
  first : built.draft.outputs.head? = some (.ofMessage built.message)
  script : built.draft.messageScript? = some built.message
  relayable : Script.Relayable built.message

namespace Assembly

variable {fees : Fees} {t : TokenType} {change : ChangeAddresses}

theorem carriesRelayable_spend {id : TokenId} {s : Selection} {message : Bytes} {qs : List UInt64}
    (recipients : List (Address × UInt64)) (h : Message.encodeSend t id qs = .ok message) :
    (spend fees s t recipients message change).CarriesRelayable ∧
      ∃ m, Message.decode message = .ok m ∧
        Message.HasSendLength m.quantities.length message := by
  obtain ⟨hrelayable, hlength⟩ := Message.relayable_of_encodeSend h
  obtain ⟨k, -, hdecode⟩ := Message.decode_send h
  exact ⟨⟨rfl, messageScript?_outputs _, hrelayable⟩, _, hdecode, hlength⟩

theorem carriesRelayable_of_create {g g' : Genesis} {t' : TokenType} {message : Bytes}
    {parent : Option Coin} {plainCoins : List Coin} {receivers : List Address} {address : Address}
    {built : Assembled GenesisSummary} (hmessage : Message.encodeGenesis t g = .ok message)
    (h : create fees t' g' message parent plainCoins receivers address = .ok built) :
    built.CarriesRelayable := by
  obtain ⟨_, _, _, _, -, -, -, -, _, -, -, rfl⟩ := create_eq_ok h
  exact ⟨rfl, messageScript?_outputs _, Message.relayable_of_encodeGenesis hmessage⟩

theorem carriesRelayable_of_pays {s : Selection} {recipients : List (Address × UInt64)}
    {built : Assembled SendSummary} (h : Pays fees s t change built recipients) :
    built.CarriesRelayable ∧ ∃ m, Message.decode built.message = .ok m ∧
      Message.HasSendLength m.quantities.length built.message := by
  cases h with
  | one h =>
    rw [send] at h
    split at h
    next => cases h
    next message hmessage =>
      cases h
      exact carriesRelayable_spend _ hmessage
  | many h =>
    obtain ⟨-, -, -, -, message, hmessage, rfl⟩ := sendMany_eq_ok h
    rw [Message.encodePayments_eq] at hmessage
    exact carriesRelayable_spend _ hmessage

/-- **Whatever is written is relayed.**  Every script that an encoder writes has at most 223 bytes,
begins with the opcode and is read as pushes.  A SEND of `n` quantities has `46 + 9 * n` bytes,
which is the default estimate for its output without the nine bytes around it.  The first output of
every transaction is such a script. -/
theorem scripts_relayable :
    (∀ t g s, Message.encodeGenesis t g = .ok s → Script.Relayable s) ∧
    (∀ ticker name url s, Message.encodeChildGenesis ticker name url = .ok s →
      Script.Relayable s) ∧
    (∀ t id b q s, Message.encodeMint t id b q = .ok s → Script.Relayable s) ∧
    (∀ t id qs s, Message.encodeSend t id qs = .ok s →
      Script.Relayable s ∧ Message.HasSendLength qs.length s) ∧
    (∀ t id recipients change s, Message.encodePayments t id recipients change = .ok s →
      Script.Relayable s ∧ Message.HasSendLength (Message.withChange recipients change).length s) ∧
    (∀ (fees : Fees) (s : Selection) (t : TokenType) (change : ChangeAddresses)
      (built : Assembled SendSummary) (recipients : List (Address × UInt64)),
      Pays fees s t change built recipients → built.CarriesRelayable ∧
        ∃ m, Message.decode built.message = .ok m ∧
          Message.HasSendLength m.quantities.length built.message) ∧
    (∀ (fees : Fees) (t : TokenType) (g : Genesis) (plainCoins : List Coin) (receiver : Address)
      (batonReceiver : Option Address) (change : Address) (built : Assembled GenesisSummary),
      genesis fees t g plainCoins receiver batonReceiver change = .ok built →
        built.CarriesRelayable) ∧
    ∀ (fees : Fees) (parent : TokenId) (parentCoins : List TokenCoin) (plainCoins : List Coin)
      (ticker name documentUrl : String) (receiver change : Address)
      (built : Assembled GenesisSummary),
      childGenesis fees parent parentCoins plainCoins ticker name documentUrl receiver change =
        .ok built → built.CarriesRelayable := by
  refine ⟨fun _ _ _ h => Message.relayable_of_encodeGenesis h,
    fun _ _ _ _ h => Message.relayable_of_encodeGenesis h,
    fun _ _ _ _ _ h => Message.relayable_of_encodeMint h,
    fun _ _ _ _ h => Message.relayable_of_encodeSend h, fun t id recipients change s h => ?_,
    fun _ _ _ _ _ _ h => carriesRelayable_of_pays h, fun _ _ _ _ _ _ _ _ h => ?_,
    fun _ _ _ _ _ _ _ _ _ _ h => ?_⟩
  · rw [Message.encodePayments_eq] at h
    exact Message.relayable_of_encodeSend h
  · obtain ⟨-, g', message, -, hmessage, hcreate⟩ := genesis_eq_ok h
    exact carriesRelayable_of_create hmessage hcreate
  · obtain ⟨burned, message, -, hmessage, hcreate⟩ := childGenesis_eq_ok h
    exact carriesRelayable_of_create hmessage hcreate

/-- The longest SEND, a MINT, a GENESIS of a child, and a payment to two recipients with change. -/
theorem scripts_relayable_sample :
    (∃ s, Message.encodeSend .fungible sampleToken (List.replicate 19 1) = .ok s ∧
      Script.Relayable s ∧ s.length = 217) ∧
    (∃ s, Message.encodeMint .nftParent sampleToken (some 2) 258 = .ok s ∧ Script.Relayable s) ∧
    (∃ s, Message.encodeChildGenesis "NFT" "Child" "" = .ok s ∧ Script.Relayable s) ∧
    ∃ built, sendMany {} sampleSelection .fungible sampleRecipients (.single ⟨"c"⟩) = .ok built ∧
      built.CarriesRelayable := by
  obtain ⟨-, hchild, hmint, hsend, -, hpays, -⟩ := scripts_relayable
  refine ⟨?_, ?_, ?_, ?_⟩
  · have hs : Message.encodeSend .fungible sampleToken (List.replicate 19 1) = .ok _ :=
      Message.encodeSend_eq_ok_iff.2 ⟨by decide, rfl⟩
    obtain ⟨hrelayable, hlength, -⟩ := hsend _ _ _ _ hs
    exact ⟨_, hs, hrelayable, hlength⟩
  · have hs : Message.encodeMint .nftParent sampleToken (some 2) 258 = .ok _ :=
      Message.encodeMint_eq_ok_iff.2
        ⟨⟨nofun, fun _ hv => Option.some.inj hv ▸ UInt8.le_refl 2⟩, rfl⟩
    exact ⟨_, hs, hmint _ _ _ _ _ hs⟩
  · have hs : Message.encodeChildGenesis "NFT" "Child" "" = .ok _ :=
      Message.encodeGenesis_eq_ok_iff.2
        ⟨⟨by decide, nofun, fun _ => ⟨rfl, rfl, rfl⟩, by decide⟩, rfl⟩
    exact ⟨_, hs, hchild _ _ _ _ hs⟩
  · obtain ⟨built, hbuilt⟩ := exists_sendMany_sample
    exact ⟨built, hbuilt, (hpays _ _ _ _ _ _ (.many hbuilt)).1⟩

end Assembly
end SimpleLedger
