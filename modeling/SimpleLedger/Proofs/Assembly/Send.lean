import SimpleLedger.Assembly.Send
import SimpleLedger.Proofs.Assembly.Basic
import SimpleLedger.Proofs.Message.RoundTrip
import SimpleLedger.Proofs.Selection

/-!
# What a SEND pays

The message of a SEND names quantities, and the transaction lists outputs.  Nothing but their
positions ties the two together, and they are put together in different places.

* `Assembly.Pays` covers both ways to assemble a SEND, for one recipient and for several;
  `Pays.eq_spend` says that they come to the same.
* `Assembly.quantities_match_outputs`: quantity `i` of the message belongs to output `i + 1`, and
  the change in currency gets no tokens.
* `Assembly.inputs_pay_for_outputs`: the inputs pay for the outputs, the fee and what it costs to
  spend them, and change in currency is paid out unless it is dust.
-/

set_option autoImplicit false

namespace SimpleLedger

namespace Assembly

/-! ## Both ways to assemble a SEND -/

/-- A selection was assembled into a SEND to the recipients. -/
inductive Pays (fees : Fees) (s : Selection) (t : TokenType) (change : ChangeAddresses)
    (built : Assembled SendSummary) : List (Address × UInt64) → Prop
  /-- One recipient gets whatever the selection was made for. -/
  | one {recipient : Address} {q : UInt64} (h : send fees s t recipient change = .ok built) :
      Pays fees s t change built [(recipient, q)]
  | many {recipients : List (Address × UInt64)}
      (h : sendMany fees s t recipients change = .ok built) :
      Pays fees s t change built recipients

/-- Who gets the outputs with tokens, in their order. -/
def holders (recipients : List (Address × UInt64)) (change : UInt64) (address : Address) :
    List Address :=
  recipients.map Prod.fst ++ if 0 < change then [address] else []

theorem length_holders (recipients : List (Address × UInt64)) (change : UInt64)
    (address : Address) :
    (holders recipients change address).length =
      (Message.withChange (recipients.map Prod.snd) (some change)).length := by
  rw [holders, Message.withChange_some, List.length_append, List.length_append, List.length_map,
    List.length_map]
  split <;> rfl

section

variable {fees fees' : Fees} {id : TokenId} {recipients : List (Address × UInt64)}
  {tokenCoins : List TokenCoin} {plainCoins : List Coin} {s : Selection} {t : TokenType}
  {change : ChangeAddresses} {built : Assembled SendSummary}

/-- The message sends all that the selected coins hold. -/
theorem totalQuantity_withChange
    (hs : Selection.Selects fees id (recipients.map Prod.snd) tokenCoins plainCoins s) :
    totalQuantity (Message.withChange (recipients.map Prod.snd) (some s.tokenChange)) =
      Selection.heldBy (Selection.picked id (recipients.map Prod.snd) tokenCoins) := by
  rw [← hs.held_eq, hs.requested_eq, Message.withChange_some,
    totalQuantity_append]
  split
  next => rw [totalQuantity_cons, totalQuantity_nil, Nat.add_zero]
  next h =>
    rw [UInt64.lt_iff_toNat_lt, UInt64.toNat_zero, Nat.not_lt, Nat.le_zero] at h
    rw [totalQuantity_nil, h]

/-- A selection stores the quantities of a SEND to a single recipient. -/
theorem quantities_eq_withChange {amounts : List UInt64}
    (hs : Selection.Selects fees id amounts tokenCoins plainCoins s) :
    s.quantities = Message.withChange [s.requested] (some s.tokenChange) := by
  rw [Message.withChange_some]
  exact hs.quantities_eq

/-- What several recipients are paid adds up to what the selection was made for. -/
theorem sendMany_eq_ok (h : sendMany fees s t recipients change = .ok built) :
    recipients ≠ [] ∧ s.quantities ≠ [] ∧
      sumQuantities? (recipients.map Prod.snd) = some s.requested ∧
      recipients.length + (if s.hasTokenChange then 1 else 0) ≤ Message.maxQuantities ∧
      ∃ message, Message.encodePayments t s.tokenId (recipients.map Prod.snd)
          (some s.tokenChange) = .ok message ∧
        built = spend fees s t recipients message change := by
  rw [sendMany] at h
  by_cases hr : recipients.isEmpty = true
  · rw [if_pos hr] at h
    cases h
  by_cases hq : s.quantities.isEmpty = true
  · rw [if_neg hr, if_pos hq] at h
    cases h
  rw [if_neg hr, if_neg hq] at h
  cases hsum : sumQuantities? (recipients.map Prod.snd) with
  | none =>
    simp only [hsum] at h
    cases h
  | some total =>
    simp only [hsum] at h
    by_cases htotal : total ≠ s.requested
    · rw [if_pos htotal] at h
      cases h
    rw [if_neg htotal] at h
    rw [not_ne_iff] at htotal
    by_cases hcount : Message.maxQuantities < recipients.length + if s.hasTokenChange then 1 else 0
    · rw [if_pos hcount] at h
      cases h
    rw [if_neg hcount] at h
    split at h
    · cases h
    next message hmessage =>
    exact ⟨fun h0 => hr (by rw [h0]; rfl), fun h0 => hq (by rw [h0]; rfl), by rw [htotal],
      Nat.le_of_not_lt hcount, message, hmessage, (Except.ok.inj h).symm⟩

/-- Whichever way it is assembled, a SEND spends the selection and names the same quantities.  The
fees need not be those of the selection. -/
theorem Pays.eq_spend
    (hs : Selection.Selects fees id (recipients.map Prod.snd) tokenCoins plainCoins s)
    (h : Pays fees' s t change built recipients) :
    ∃ message, Message.encodeSend t id
        (Message.withChange (recipients.map Prod.snd) (some s.tokenChange)) = .ok message ∧
      built = spend fees' s t recipients message change := by
  cases h with
  | @one recipient q h =>
    rw [send] at h
    split at h
    · cases h
    next message hmessage =>
    have hq : s.requested = q := by
      rw [← UInt64.toNat_inj, hs.requested_eq]
      simp only [List.map_cons, List.map_nil, totalQuantity_cons, totalQuantity_nil, Nat.add_zero]
    rw [hs.tokenId_eq, quantities_eq_withChange hs, hq] at hmessage
    rw [hq] at h
    exact ⟨message, hmessage, (Except.ok.inj h).symm⟩
  | many h =>
    obtain ⟨-, -, -, -, message, hmessage, hbuilt⟩ := sendMany_eq_ok h
    rw [Message.encodePayments_eq, hs.tokenId_eq] at hmessage
    exact ⟨message, hmessage, hbuilt⟩

/-- The outputs: the message, dust for everyone who gets tokens, and the change in currency. -/
theorem outputs_spend
    (hs : Selection.Selects fees id (recipients.map Prod.snd) tokenCoins plainCoins s)
    (message : Bytes) :
    (spend fees' s t recipients message change).draft.outputs =
      .ofMessage message ::
        (holders recipients s.tokenChange change.tokens).map (.payTo · fees'.dustLimit) ++
          changeOutputs fees' s.change change.currency := by
  rw [spend, holders]
  simp only [outputs, hs.hasTokenChange_iff]

/-- The message of a SEND reads back from its draft. -/
theorem exists_message_spend {message : Bytes} {qs : List UInt64}
    (h : Message.encodeSend t id qs = .ok message) :
    ∃ m, (spend fees s t recipients message change).draft.message? = some m ∧
      m.kind.isSend = true ∧ m.tokenType = t ∧ m.tokenId = some id ∧ m.quantities = qs := by
  obtain ⟨k, ⟨-, hoperation⟩, hdecode⟩ := Message.decode_send h
  refine ⟨⟨t, k, some id, none, none, qs⟩, ?_, decide_eq_true hoperation, rfl, rfl, rfl⟩
  rw [spend, message?_outputs, hdecode]
  rfl

/-! ## Quantities and outputs -/

/-- Outputs with tokens follow the message in the order of the quantities. -/
theorem getElem?_succ_outputs {o : Output} {as : List Address} {dust : Satoshi}
    {rest : List Output} {i : Nat} {a : Address} (h : as[i]? = some a) :
    (o :: as.map (.payTo · dust) ++ rest)[i + 1]? = some (.payTo a dust) := by
  obtain ⟨hi, -⟩ := List.getElem?_eq_some_iff.1 h
  rw [List.cons_append, List.getElem?_cons_succ,
    List.getElem?_append_left (by rw [List.length_map]; exact hi), List.getElem?_map, h]
  rfl

theorem drop_succ_outputs (o : Output) (as : List Address) (dust : Satoshi) (rest : List Output) :
    (o :: as.map (.payTo · dust) ++ rest).drop (as.length + 1) = rest := by
  have hlen : (as.map (Output.payTo · dust)).length = as.length := List.length_map _
  rw [List.cons_append, List.drop_succ_cons, ← hlen, List.drop_left]

/-- **Quantities and outputs agree by position.**  The message of a SEND reads back as the
quantities of the recipients and then the change in tokens, if there is any.  Quantity `i` stands
for output `i + 1`, which pays dust to the recipient, or to the address for token change.  Change
in currency is the only output after these.  All this holds under any fees, and not only those of
the selection. -/
theorem quantities_match_outputs
    (hs : Selection.select fees id (recipients.map Prod.snd) tokenCoins plainCoins = .ok s)
    (hb : Pays fees' s t change built recipients) :
    ∃ m, Message.decode built.message = .ok m ∧
      m.tokenType = t ∧ MessageKind.of? t .send = some m.kind ∧ m.tokenId = some id ∧
      m.quantities =
        recipients.map Prod.snd ++ (if 0 < s.tokenChange then [s.tokenChange] else []) ∧
      (∃ script, built.draft.outputs[0]? = some (.message script) ∧
        Hex.decode script = .ok built.message) ∧
      (∀ (i : Nat) (r : Address × UInt64), recipients[i]? = some r →
        built.draft.outputs[i + 1]? = some (.payTo r.1 fees'.dustLimit)) ∧
      (0 < s.tokenChange → built.draft.outputs[recipients.length + 1]? =
        some (.payTo change.tokens fees'.dustLimit)) ∧
      (built.draft.outputs.drop (m.quantities.length + 1) = [] ∨
        ∃ v, built.draft.outputs.drop (m.quantities.length + 1) =
          [.payTo change.currency v]) := by
  have hs := Selection.selects_of_select hs
  obtain ⟨message, hmessage, rfl⟩ := hb.eq_spend hs
  obtain ⟨k, hk, hdecode⟩ := Message.decode_send hmessage
  refine ⟨_, hdecode, rfl, MessageKind.of?_eq_some_iff.2 hk, rfl, Message.withChange_some _ _, ?_,
    ?_, ?_, ?_⟩
  · exact ⟨Hex.encode message, rfl, Hex.decode_encode message⟩
  · intro i r hr
    rw [outputs_spend hs]
    refine getElem?_succ_outputs ?_
    obtain ⟨hi, -⟩ := List.getElem?_eq_some_iff.1 hr
    rw [holders, List.getElem?_append_left (by rw [List.length_map]; exact hi),
      List.getElem?_map, hr]
    rfl
  · intro hpos
    rw [outputs_spend hs]
    refine getElem?_succ_outputs ?_
    have hlen : (recipients.map Prod.fst).length = recipients.length := List.length_map _
    rw [holders, if_pos hpos, ← hlen, List.getElem?_append_right (Nat.le_refl _), Nat.sub_self]
    rfl
  · rw [outputs_spend hs, ← length_holders recipients s.tokenChange change.tokens,
      drop_succ_outputs, changeOutputs]
    split
    · exact .inr ⟨_, rfl⟩
    · exact .inl rfl

/-- A token to give examples with. -/
def sampleToken : TokenId := ⟨⟨List.replicate 32 7, rfl⟩⟩

/-- Two recipients, who get 50 tokens together. -/
def sampleRecipients : List (Address × UInt64) := [(⟨"a"⟩, 30), (⟨"b"⟩, 20)]

/-- What is selected for them from coins with 40 and 25 tokens and a plain one. -/
def sampleSelection : Selection :=
  ⟨sampleToken, [50, 15], 8685, 325, 1638,
    [⟨"t", 2, 546, ""⟩, ⟨"t", 1, 546, ""⟩, ⟨"p", 0, 10000, ""⟩], 2, 65⟩

theorem select_sample :
    Selection.select {} sampleToken (sampleRecipients.map Prod.snd)
      [⟨sampleToken, 40, ⟨"t", 1, 546, ""⟩⟩, ⟨sampleToken, 25, ⟨"t", 2, 546, ""⟩⟩]
      [⟨"p", 0, 10000, ""⟩] = .ok sampleSelection := by
  cbv

theorem exists_sendMany_sample :
    ∃ built, sendMany {} sampleSelection .fungible sampleRecipients (.single ⟨"c"⟩) = .ok built :=
  ⟨_, by cbv⟩

/-- Two recipients and the change in tokens. -/
theorem quantities_match_outputs_sample :
    ∃ built, sendMany {} sampleSelection .fungible sampleRecipients (.single ⟨"c"⟩) = .ok built ∧
      ∃ m, Message.decode built.message = .ok m ∧ m.quantities = [30, 20, 15] ∧
        built.draft.outputs[3]? = some (.payTo ⟨"c"⟩ 546) := by
  obtain ⟨built, hb⟩ := exists_sendMany_sample
  obtain ⟨m, hm, -, -, -, hq, -, -, hchange, -⟩ :=
    quantities_match_outputs select_sample (.many hb)
  exact ⟨built, hb, m, hm, hq, hchange (by decide)⟩

/-! ## Currency -/

/-- What the outputs with tokens are worth is what the selection set aside for them. -/
theorem dust_eq_mul_length
    (hs : Selection.Selects fees id (recipients.map Prod.snd) tokenCoins plainCoins s)
    (hlen : (Message.withChange (recipients.map Prod.snd) (some s.tokenChange)).length ≤ 19)
    (address : Address) :
    fees.dustLimit.toInt * (holders recipients s.tokenChange address).length = s.dust.toInt := by
  rw [← length_holders recipients s.tokenChange address] at hlen
  rw [holders, List.length_append, List.length_map] at hlen
  rw [hs.dust_eq, List.length_map, Satoshi.toInt_ofCount (by omega), holders, List.length_append,
    List.length_map]
  split
  · rw [List.length_singleton, Int.natCast_add, Int.mul_add]
    simp
  · simp

/-- The outputs of a SEND are worth the dust set aside for tokens and the change paid out. -/
theorem outputSum_spend
    (hs : Selection.Selects fees id (recipients.map Prod.snd) tokenCoins plainCoins s)
    (message : Bytes)
    (hlen : (Message.withChange (recipients.map Prod.snd) (some s.tokenChange)).length ≤ 19) :
    (spend fees s t recipients message change).draft.outputSum =
      s.dust.toInt + (paidChange fees s.change).toInt := by
  rw [Draft.outputSum, outputs_spend hs, List.cons_append, List.map_cons, List.sum_cons,
    List.map_append, List.sum_append, sum_value_payTo, dust_eq_mul_length hs hlen,
    sum_value_changeOutputs]
  exact Int.zero_add _

/-- What the inputs are worth does not depend on whom the selection was made for. -/
theorem inputSum_spend {amounts : List UInt64}
    (hs : Selection.Selects fees id amounts tokenCoins plainCoins s) (message : Bytes) :
    (spend fees s t recipients message change).draft.inputSum =
      s.dust.toInt + s.fee.toInt + s.change.toInt + fees.perInput.toInt * s.inputs.length := by
  rw [← hs.balance, ← fees.sum_value_eq_worth_add]
  rfl

/-- **The inputs pay for the outputs**, the fee and what it costs to spend them.  Change that is
worth the dust limit is paid out as it is; less change is dropped, and nothing else is.  No output
but the message is worth less than the dust limit. -/
theorem inputs_pay_for_outputs
    (hs : Selection.select fees id (recipients.map Prod.snd) tokenCoins plainCoins = .ok s)
    (hb : Pays fees s t change built recipients) :
    ∃ (paid : List Output) (dropped : Int),
      built.draft.outputs =
        .ofMessage built.message ::
          (holders recipients s.tokenChange change.tokens).map (.payTo · fees.dustLimit) ++ paid ∧
      (paid ≠ [] ↔ fees.dustLimit ≤ s.change) ∧
      (paid ≠ [] → paid = [.payTo change.currency s.change] ∧
        built.summary.change = s.change ∧ dropped = 0) ∧
      (paid = [] → built.summary.change = 0 ∧ dropped = s.change.toInt ∧ 0 ≤ dropped) ∧
      built.draft.inputSum = built.draft.outputSum + s.fee.toInt +
        fees.perInput.toInt * built.draft.inputs.length + dropped ∧
      ∀ a v, .payTo a v ∈ built.draft.outputs → fees.dustLimit ≤ v := by
  have hs := Selection.selects_of_select hs
  obtain ⟨message, hmessage, rfl⟩ := hb.eq_spend hs
  obtain ⟨⟨-, hlen⟩, -⟩ := Message.encodeSend_eq_ok_iff.1 hmessage
  have hsum : (spend fees s t recipients message change).draft.inputSum =
      (spend fees s t recipients message change).draft.outputSum + s.fee.toInt +
        fees.perInput.toInt * s.inputs.length +
          (s.change.toInt - (paidChange fees s.change).toInt) := by
    rw [inputSum_spend hs, outputSum_spend hs message hlen]
    omega
  refine ⟨changeOutputs fees s.change change.currency,
    s.change.toInt - (paidChange fees s.change).toInt, outputs_spend hs message, ?_, ?_, ?_, hsum,
    fun a v h => dustLimit_le_of_mem h⟩
  · rw [changeOutputs]
    split
    next hle => exact iff_of_true (List.cons_ne_nil _ _) hle
    next hlt => exact iff_of_false (fun h => h rfl) hlt
  · intro hpaid
    by_cases hle : fees.dustLimit ≤ s.change
    · rw [changeOutputs, if_pos hle, paidChange, if_pos hle, Int.sub_self]
      exact ⟨rfl, if_pos hle, rfl⟩
    · rw [changeOutputs, if_neg hle] at hpaid
      exact absurd rfl hpaid
  · intro hpaid
    by_cases hle : fees.dustLimit ≤ s.change
    · rw [changeOutputs, if_pos hle] at hpaid
      cases hpaid
    · rw [paidChange, if_neg hle, Int64.toInt_zero, Int.sub_zero]
      exact ⟨if_neg hle, rfl, hs.change_nonneg⟩

/-- The change is worth more than dust, so nothing is dropped. -/
theorem inputs_pay_for_outputs_sample :
    ∃ built, sendMany {} sampleSelection .fungible sampleRecipients (.single ⟨"c"⟩) = .ok built ∧
      built.draft.inputSum = built.draft.outputSum + 325 + 148 * built.draft.inputs.length := by
  obtain ⟨built, hb⟩ := exists_sendMany_sample
  obtain ⟨paid, dropped, -, hpaid, hchange, -, hsum, -⟩ :=
    inputs_pay_for_outputs select_sample (.many hb)
  obtain ⟨-, -, rfl⟩ := hchange (hpaid.2 (by decide))
  rw [Int.add_zero] at hsum
  exact ⟨built, hb, hsum⟩

end

end Assembly
end SimpleLedger
