import SimpleLedger.Proofs.Amount.Scaling
import SimpleLedger.Proofs.Wallet.Atomic

/-!
# What a payment delivers

From the text of an amount to the transaction on the ledger, a payment goes through the look-up of
the token, the scaling of the amount, the selection of coins, the message and the list of outputs.

* `Delivers` is what a draft has to be for the recipients to get their quantities and nothing else.
* `PlansPayment.exists_delivers`: whatever was planned for a payment delivers it.
* `Action.exists_plans_of_ok`: an action that succeeds has recorded what it planned.
* `Action.delivers_exactly` puts them together with the number that the text of an amount denotes.
-/

set_option autoImplicit false

namespace SimpleLedger

/-- The byte under which tokens of a kind are sent. -/
def TokenKind.typeByte : TokenKind → UInt8
  | .fungible => 0x01
  | .nftGroup => 0x81
  | .nft _ => 0x41

theorem TokenKind.byte_tokenType (k : TokenKind) : k.tokenType.byte = k.typeByte := by
  cases k <;> rfl

theorem Descriptor.isNft_eq_true_iff {token : Descriptor} :
    token.isNft = true ↔ ∃ parent, token.kind = .nft parent := by
  rw [isNft]
  split
  next parent h => exact iff_of_true rfl ⟨parent, h⟩
  next hne => exact iff_of_false Bool.false_ne_true fun ⟨parent, h⟩ => hne parent h

namespace Assembly

/-! ## Change in tokens -/

theorem holders_eq_append_filter (recipients : List (Address × UInt64)) (change : UInt64)
    (address : Address) :
    holders recipients change address =
      recipients.map Prod.fst ++ ((some change).filter (0 < ·)).toList.map fun _ => address := by
  rw [holders, Option.filter_some]
  simp only [decide_eq_true_eq]
  split <;> rfl

end Assembly

namespace Wallet

section

variable {config : Config} {b after : Backend} {token : Descriptor}
  {recipients : List (Address × UInt64)} {extra : Option UInt64} {d : Draft} {a : Action}
  {txid : TxId}

/-! ## Payments -/

/-- A draft that sends each recipient their quantity of a token.  Whatever else the coins hold comes
back as `extra`. -/
structure Delivers (config : Config) (b : Backend) (token : Descriptor)
    (recipients : List (Address × UInt64)) (extra : Option UInt64) (d : Draft) : Prop where
  /-- The message reads as a SEND of these quantities. -/
  message : ∃ m, d.message? = some m ∧ m.kind.isSend = true ∧ m.tokenId = some token.tokenId ∧
    m.tokenType.byte = token.kind.typeByte ∧
    m.quantities = recipients.map Prod.snd ++ extra.toList
  /-- Quantity `i` stands for output `i + 1`.  Change in currency comes after all of these. -/
  outputs : ∃ (script : String) (rest : List Output),
    d.outputs = .message script ::
      (recipients.map Prod.fst ++ extra.toList.map fun _ => b.tokenChange).map
        (.payTo · config.fees.dustLimit) ++ rest ∧
    (rest = [] ∨ ∃ v, rest = [.payTo b.change v])
  extra_pos : ∀ c, extra = some c → 0 < c

/-- **What is planned for a payment** delivers it. -/
theorem PlansPayment.exists_delivers (h : PlansPayment config b token recipients d) :
    ∃ extra, Delivers config b token recipients extra d := by
  obtain ⟨-, -, hbuilt⟩ := h
  obtain ⟨s, hs, hpays⟩ := buildPayment_eq_ok hbuilt
  have hs := Selection.selects_of_select hs
  obtain ⟨message, hmessage, rfl⟩ := hpays.eq_spend hs
  obtain ⟨m, hm, hkind, htype, hid, hquantities⟩ := Assembly.exists_message_spend hmessage
  refine ⟨(some s.tokenChange).filter (0 < ·), ⟨m, hm, hkind, hid, ?_, ?_⟩, ?_, fun c hc => ?_⟩
  · rw [htype, token.kind.byte_tokenType]
  · rw [hquantities, Message.withChange_eq]
  · refine ⟨Hex.encode message, Assembly.changeOutputs config.fees s.change b.change, ?_, ?_⟩
    · rw [Assembly.outputs_spend hs, Assembly.holders_eq_append_filter]
      rfl
    · rw [Assembly.changeOutputs]
      split
      · exact .inr ⟨_, rfl⟩
      · exact .inl rfl
  · exact of_decide_eq_true (Option.filter_eq_some_iff.1 hc).2

/-! ## Actions -/

/-- **An action that succeeds** has recorded a draft that it planned. -/
theorem Action.exists_plans_of_ok (h : b.act config a = (.ok txid, after)) :
    ∃ d, after.recorded = b.recorded ++ [d] ∧ a.Plans config b d := by
  have hends := a.ends config b
  rw [h] at hends
  cases hends with
  | recorded d hd _ => exact ⟨d, rfl, hd⟩

/-- Sending an amount is sending its quantity to several recipients, of whom there is one. -/
theorem Backend.act_send_eq {id : TokenId} {amount : String} {recipient : Address} {q : UInt64}
    (htoken : b.descriptor? id = some token) (hraw : token.toRaw amount = .ok q) :
    b.act config (.send id amount recipient) = b.act config (.sendMany id [(recipient, q)]) := by
  rw [act, act, Action.procedure, Action.procedure, send, sendMany, descriptor]
  change (Procedure.call (.tokenDescriptor id) _).run b =
    (Procedure.call (.tokenDescriptor id) _).run b
  rw [Procedure.run, Procedure.run]
  rcases hb : b.answer (.tokenDescriptor id) with ⟨r, b'⟩
  cases r with
  | error e => rfl
  | ok found =>
    have hfound : found = some token :=
      (eq_perform_of_answer (congrArg Prod.fst hb)).trans htoken
    subst hfound
    simp only [Procedure.bind, ExceptT.bindCont, pure, ExceptT.pure, ExceptT.mk, hraw]

end

/-- **Payments deliver exactly what was asked for.**  Where an amount is sent, it is the number that
its text denotes, counted in units of the token; of a token without decimals, its whole part.  A
unique token is sent as a single unit, and several recipients get their quantities in order.  What
else the coins hold comes back to the address for token change. -/
theorem Action.delivers_exactly (config : Config) (b : Backend) :
    (∀ (id : TokenId) (amount : String) (recipient : Address) (txid : TxId) (after : Backend),
      b.act config (.send id amount recipient) = (.ok txid, after) →
      ∃ (token : Descriptor) (v : ℚ) (q : UInt64) (extra : Option UInt64) (d : Draft),
        b.descriptor? id = some token ∧ token.decimals ≤ 9 ∧ Denotes amount v ∧
        (1 ≤ token.decimals → v * 10 ^ token.decimals.toNat = q.toNat) ∧
        (token.decimals = 0 → q.toNat = ⌊v⌋₊) ∧
        after.recorded = b.recorded ++ [d] ∧
        Delivers config b token [(recipient, q)] extra d ∧
        d.outputs[1]? = some (.payTo recipient config.fees.dustLimit) ∧
        ∀ c, extra = some c →
          d.outputs[2]? = some (.payTo b.tokenChange config.fees.dustLimit)) ∧
    (∀ (id : TokenId) (recipient : Address) (txid : TxId) (after : Backend),
      b.act config (.sendNft id recipient) = (.ok txid, after) →
      ∃ (token : Descriptor) (parent : Option TokenId) (extra : Option UInt64) (d : Draft),
        b.descriptor? id = some token ∧ token.kind = .nft parent ∧
        after.recorded = b.recorded ++ [d] ∧ Delivers config b token [(recipient, 1)] extra d) ∧
    ∀ (id : TokenId) (recipients : List (Address × UInt64)) (txid : TxId) (after : Backend),
      b.act config (.sendMany id recipients) = (.ok txid, after) →
      ∃ (token : Descriptor) (extra : Option UInt64) (d : Draft),
        b.descriptor? id = some token ∧ after.recorded = b.recorded ++ [d] ∧
        Delivers config b token recipients extra d := by
  refine ⟨fun id amount recipient txid after h => ?_, fun id recipient txid after h => ?_,
    fun id recipients txid after h => ?_⟩
  · obtain ⟨d, hrecorded, hplans⟩ := exists_plans_of_ok h
    cases hplans with
    | @send _ _ _ token q _ htoken hraw hpayment =>
      obtain ⟨hdecimals, v, hv, -, hscaled, hwhole⟩ := Descriptor.toRaw_eq_ok_iff.1 hraw
      obtain ⟨extra, hdelivers⟩ := hpayment.exists_delivers
      obtain ⟨script, rest, houtputs, -⟩ := hdelivers.outputs
      refine ⟨token, v, q, extra, d, htoken, hdecimals, hv, hscaled, hwhole, hrecorded, hdelivers,
        ?_, ?_⟩
      · rw [houtputs]
        rfl
      · rintro c rfl
        rw [houtputs]
        rfl
  · obtain ⟨d, hrecorded, hplans⟩ := exists_plans_of_ok h
    cases hplans with
    | @sendNft _ _ token _ htoken hnft hpayment =>
      obtain ⟨parent, hkind⟩ := Descriptor.isNft_eq_true_iff.1 hnft
      obtain ⟨extra, hdelivers⟩ := hpayment.exists_delivers
      exact ⟨token, parent, extra, d, htoken, hkind, hrecorded, hdelivers⟩
  · obtain ⟨d, hrecorded, hplans⟩ := exists_plans_of_ok h
    cases hplans with
    | @sendMany _ _ token _ htoken hpayment =>
      obtain ⟨extra, hdelivers⟩ := hpayment.exists_delivers
      exact ⟨token, extra, d, htoken, hrecorded, hdelivers⟩

/-- A token with two decimals. -/
def sampleScaled : Descriptor := ⟨Assembly.sampleToken, "T", "", 2, .fungible⟩

/-- A token of which there is one unit. -/
def sampleUnique : TokenId := ⟨⟨List.replicate 32 9, rfl⟩⟩

/-- A backend with coins of 200 and 300 units of a token with two decimals, and a unique token. -/
def samplePurse : Backend where
  descriptors := [(Assembly.sampleToken, sampleScaled),
    (sampleUnique, .nft sampleUnique none "N" "")]
  tokenCoins := [⟨⟨Assembly.sampleToken, 200, ⟨"t", 1, 546, ""⟩⟩, false⟩,
    ⟨⟨Assembly.sampleToken, 300, ⟨"t", 2, 546, ""⟩⟩, false⟩,
    ⟨⟨sampleUnique, 1, ⟨"n", 1, 546, ""⟩⟩, false⟩]
  plainCoins := [⟨⟨"p", 0, 10000, ""⟩, false⟩]
  tokenChange := ⟨"c"⟩
  change := ⟨"d"⟩
  unfiltered := false
  fault := none
  recorded := []
  log := []

theorem descriptor?_sample :
    samplePurse.descriptor? Assembly.sampleToken = some sampleScaled := by
  decide +kernel

theorem act_send_sample :
    (samplePurse.act {} (.send Assembly.sampleToken "2.5" ⟨"a"⟩)).1 = .ok "tx1" := by
  have hraw : sampleScaled.toRaw "2.5" = .ok 250 := by decide +kernel
  rw [Backend.act_send_eq descriptor?_sample hraw]
  cbv

theorem act_sendNft_sample : (samplePurse.act {} (.sendNft sampleUnique ⟨"a"⟩)).1 = .ok "tx1" := by
  cbv

theorem act_sendMany_sample :
    (samplePurse.act {} (.sendMany Assembly.sampleToken Assembly.sampleRecipients)).1 =
      .ok "tx1" := by
  cbv

/-- An amount of 2.5 is sent as 250 units. -/
theorem Action.delivers_exactly_sample :
    (∃ after extra d,
      samplePurse.act {} (.send Assembly.sampleToken "2.5" ⟨"a"⟩) = (.ok "tx1", after) ∧
      after.recorded = [d] ∧ Delivers {} samplePurse sampleScaled [(⟨"a"⟩, 250)] extra d ∧
      d.outputs[1]? = some (.payTo ⟨"a"⟩ 546)) ∧
    (∃ after token extra d,
      samplePurse.act {} (.sendNft sampleUnique ⟨"a"⟩) = (.ok "tx1", after) ∧
      after.recorded = [d] ∧ Delivers {} samplePurse token [(⟨"a"⟩, 1)] extra d) ∧
    ∃ after token extra d,
      samplePurse.act {} (.sendMany Assembly.sampleToken Assembly.sampleRecipients) =
        (.ok "tx1", after) ∧
      after.recorded = [d] ∧ Delivers {} samplePurse token Assembly.sampleRecipients extra d := by
  have hsend := Prod.fst_eq_iff.1 act_send_sample
  have hsendNft := Prod.fst_eq_iff.1 act_sendNft_sample
  have hsendMany := Prod.fst_eq_iff.1 act_sendMany_sample
  obtain ⟨hscaled, hunique, hmany⟩ := delivers_exactly {} samplePurse
  refine ⟨?_, ?_, ?_⟩
  · obtain ⟨token, v, q, extra, d, htoken, -, ⟨-, hv⟩, hunits, -, hrecorded, hd, hpaid, -⟩ :=
      hscaled _ _ _ _ _ hsend
    obtain rfl : sampleScaled = token :=
      Option.some.inj (descriptor?_sample.symm.trans htoken)
    have hdenoted : denoted (Text.trim "2.5".toList) = 25 / 10 := by
      have hcore : Text.trim "2.5".toList = ['2', '.', '5'] := by cbv
      have hdigits : Nat.ofDigitChars 10 (['2', '.', '5'].filter Char.isDigit) 0 = 25 := by decide
      rw [hcore, denoted, hdigits]
      rfl
    have hplaces : sampleScaled.decimals.toNat = 2 := rfl
    have hq : (q.toNat : ℚ) = 250 := by
      rw [← hunits (by decide), ← hv, hdenoted, hplaces]
      norm_num
    obtain rfl : q = 250 := UInt64.toNat_inj.1 (by exact_mod_cast hq)
    exact ⟨_, extra, d, hsend, hrecorded, hd, hpaid⟩
  · obtain ⟨token, -, extra, d, -, -, hrecorded, hd⟩ := hunique _ _ _ _ hsendNft
    exact ⟨_, token, extra, d, hsendNft, hrecorded, hd⟩
  · obtain ⟨token, extra, d, -, hrecorded, hd⟩ := hmany _ _ _ _ hsendMany
    exact ⟨_, token, extra, d, hsendMany, hrecorded, hd⟩

end Wallet
end SimpleLedger
