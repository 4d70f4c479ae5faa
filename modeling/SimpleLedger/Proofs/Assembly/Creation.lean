import SimpleLedger.Proofs.Assembly.Genesis

/-!
# What creating a token pays

A GENESIS announces the output that gets the right to mint by its index, and is assembled elsewhere
into a list of outputs.  What it costs depends on the length of its message, and a child brings a
coin of its own to pay with.

* `Assembly.Creates` is what holds of every transaction that creates a token, whatever its message;
  `creates_of_create` says that it does.
* `Assembly.genesis_laid_out`: a GENESIS announces the right to mint just where it is paid, and the
  inputs pay for the outputs, the fee and what it costs to spend them.
* `Assembly.childGenesis_burns_parent`: a child is refused for want of a parent just if no coin
  holds a single unit of it; else the first such coin goes in first and is paid for like the rest.
-/

set_option autoImplicit false

namespace SimpleLedger

namespace Assembly

variable {fees : Fees} {t : TokenType} {g : Genesis} {message : Bytes} {parent : Option Coin}
  {plainCoins : List Coin} {receivers : List Address} {change : Address}
  {built : Assembled GenesisSummary}

/-! ## Every creation -/

/-- What every transaction that creates a token consists of.  `leftover` is what is left when the
outputs with tokens, the fee and the inputs have been paid for. -/
structure Creates (fees : Fees) (message : Bytes) (parent : Option Coin) (plainCoins : List Coin)
    (receivers : List Address) (change : Address) (built : Assembled GenesisSummary)
    (leftover : Satoshi) : Prop where
  message_eq : built.message = message
  outputs_eq : built.draft.outputs = outputs fees message receivers leftover change
  inputs_eq : ∃ plain : List Coin, plain.Subperm plainCoins ∧
    built.draft.inputs = parent.toList ++ plain
  fee_eq : fees.genesisFee? message.length receivers.length = some built.summary.fee
  change_eq : built.summary.change = paidChange fees leftover
  burnedParent_eq : built.summary.burnedParent = parent.map Coin.outpoint
  leftover_nonneg : 0 ≤ leftover.toInt
  balance : built.draft.inputSum = built.draft.outputSum + built.summary.fee.toInt +
    fees.perInput.toInt * built.draft.inputs.length +
      (leftover.toInt - (paidChange fees leftover).toInt)

theorem creates_of_create (hcount : receivers.length < 2 ^ 63)
    (h : create fees t g message parent plainCoins receivers change = .ok built) :
    ∃ leftover, Creates fees message parent plainCoins receivers change built leftover := by
  obtain ⟨fee, required, already, f, hfee, hrequired, halready, hf, leftover, hleftover, hnonneg,
    rfl⟩ := create_eq_ok h
  refine ⟨leftover, rfl, rfl, ⟨f.inputs, Funding.subperm_of_select? hf, rfl⟩, hfee, rfl, rfl,
    hnonneg, ?_⟩
  have htotal := (Funding.select?_eq_some hf).2
  rw [Satoshi.toInt_ofCount hcount] at hrequired
  rw [outputSum_outputs, Draft.inputSum, fees.sum_value_eq_worth_add, Fees.worth_append, ← halready]
  show _ = _ + fee.toInt + _ + _
  omega

/-- What of the leftover is not paid out. -/
theorem Creates.exists_dropped {leftover : Satoshi}
    (h : Creates fees message parent plainCoins receivers change built leftover) :
    ∃ dropped : Int,
      built.draft.inputSum = built.draft.outputSum + built.summary.fee.toInt +
        fees.perInput.toInt * built.draft.inputs.length + dropped ∧
      0 ≤ dropped ∧ dropped = if fees.dustLimit ≤ leftover then 0 else leftover.toInt := by
  refine ⟨_, h.balance, ?_⟩
  have hnonneg := h.leftover_nonneg
  rw [paidChange]
  split
  · rw [Int.sub_self]
    exact ⟨Int.le_refl 0, rfl⟩
  · rw [Int64.toInt_zero, Int.sub_zero]
    exact ⟨hnonneg, rfl⟩

/-! ## Fungible tokens and groups -/

/-- **The right to mint goes where the message says.**  No child is created this way.  The message
reads back with the details that were asked for, the supply as its only quantity, and the right to
mint at output 2 just if someone gets it, whatever the GENESIS says about it.  The outputs are the
message, dust to the receiver, dust to whoever gets the right to mint, and the change, if it is
worth the dust limit.  The inputs are plain coins, and pay for the outputs, the fee, the spending of
the inputs and what is dropped, which is nothing if change is paid. -/
theorem genesis_laid_out {receiver : Address} {batonReceiver : Option Address}
    (h : genesis fees t g plainCoins receiver batonReceiver change = .ok built) :
    t ≠ .nftChild ∧
    (∃ k : MessageKind, (k.tokenType = t ∧ k.operation = .genesis) ∧
      Message.decode built.message = .ok ⟨t, k, none, some g.toTokenDetails,
        batonReceiver.map fun _ => 2, [g.initialQuantity]⟩) ∧
    built.draft.messageScript? = some built.message ∧
    (∀ baton, batonReceiver = some baton →
      built.draft.outputs[2]? = some (.payTo baton fees.dustLimit)) ∧
    built.draft.inputs.Subperm plainCoins ∧
    fees.genesisFee? built.message.length (1 + batonReceiver.toList.length) =
      some built.summary.fee ∧
    ∃ (leftover : Satoshi) (dropped : Int),
      built.draft.outputs =
        .ofMessage built.message :: .payTo receiver fees.dustLimit ::
          batonReceiver.toList.map (.payTo · fees.dustLimit) ++
            (if fees.dustLimit ≤ leftover then [.payTo change leftover] else []) ∧
      built.draft.inputSum = built.draft.outputSum + built.summary.fee.toInt +
        fees.perInput.toInt * built.draft.inputs.length + dropped ∧
      0 ≤ dropped ∧ dropped = if fees.dustLimit ≤ leftover then 0 else leftover.toInt := by
  obtain ⟨ht, g', message, rfl, hmessage, hcreate⟩ := genesis_eq_ok h
  have hlen : batonReceiver.toList.length ≤ 1 := by
    rcases batonReceiver with _ | baton
    · exact Nat.zero_le 1
    · exact Nat.le_refl 1
  obtain ⟨leftover, hc⟩ := creates_of_create (by rw [List.length_cons]; omega) hcreate
  obtain ⟨dropped, hdropped⟩ := hc.exists_dropped
  have hmessage' := hc.message_eq
  subst hmessage'
  have houtputs := hc.outputs_eq
  obtain ⟨plain, hsub, hinputs⟩ := hc.inputs_eq
  refine ⟨ht, Message.decode_genesis hmessage, ?_, ?_, ?_, ?_, leftover, dropped, houtputs,
    hdropped⟩
  · rw [Draft.messageScript?, houtputs]
    simp [outputs, Output.ofMessage, Hex.decode_encode, Except.toOption]
  · rintro baton rfl
    rw [houtputs]
    rfl
  · rw [hinputs]
    exact hsub
  · rw [Nat.add_comm]
    exact hc.fee_eq

/-- A coin that pays for a GENESIS with the right to mint. -/
theorem genesis_laid_out_sample :
    ∃ built, genesis {} .fungible ⟨⟨"TST", "Test", "", none, 2⟩, some 7, 1000⟩
        [⟨"p", 0, 10000, ""⟩] ⟨"a"⟩ (some ⟨"m"⟩) ⟨"c"⟩ = .ok built ∧
      built.draft.outputs[2]? = some (.payTo ⟨"m"⟩ 546) ∧
      ∃ m, Message.decode built.message = .ok m ∧ m.mintBatonVout = some 2 := by
  have hb : ∃ built, genesis {} .fungible ⟨⟨"TST", "Test", "", none, 2⟩, some 7, 1000⟩
      [⟨"p", 0, 10000, ""⟩] ⟨"a"⟩ (some ⟨"m"⟩) ⟨"c"⟩ = .ok built := ⟨_, by cbv⟩
  obtain ⟨built, hb⟩ := hb
  obtain ⟨-, ⟨k, -, hm⟩, -, hbaton, -⟩ := genesis_laid_out hb
  exact ⟨built, hb, hbaton _ rfl, _, hm, rfl⟩

/-! ## Unique children -/

section

variable {parent : TokenId} {parentCoins : List TokenCoin} {ticker name documentUrl : String}
  {receiver : Address}

theorem childGenesis_eq_missingParent_iff {id : TokenId} :
    childGenesis fees parent parentCoins plainCoins ticker name documentUrl receiver change =
        .error (.selection (.missingParent id)) ↔
      id = parent ∧ ∀ c ∈ parentCoins, ¬(c.tokenId = parent ∧ c.quantity = 1) := by
  rw [childGenesis, bind_eq_error_iff, Selection.selectParent_eq_error_iff]
  have hinj : (Error.selection (.missingParent id) = .selection (.missingParent parent)) ↔
      id = parent := by
    rw [Error.selection.injEq, SelectionError.missingParent.injEq]
  rw [hinj]
  refine or_iff_left ?_
  rintro ⟨burned, -, h⟩
  split at h
  · cases h
  · rcases error_of_create h with h | ⟨required, available, h⟩ <;> cases h

/-- **A child burns exactly one unit of its parent.**  It is refused for want of a parent just if no
coin holds a single unit of it.  Otherwise the first coin that does goes in first and is reported as
burned, and all other inputs are plain coins.  The message reads back as the GENESIS of a child with
the texts that were given: no decimals, no right to mint, one unit.  Output 1 goes to the receiver,
and the inputs, the parent among them, pay for the outputs, the fee, the spending of every input and
what is dropped, which is nothing if change is paid. -/
theorem childGenesis_burns_parent (fees : Fees) (parent : TokenId) (parentCoins : List TokenCoin)
    (plainCoins : List Coin) (ticker name documentUrl : String) (receiver change : Address) :
    (∀ id, childGenesis fees parent parentCoins plainCoins ticker name documentUrl receiver change =
        .error (.selection (.missingParent id)) ↔
      id = parent ∧ ∀ c ∈ parentCoins, ¬(c.tokenId = parent ∧ c.quantity = 1)) ∧
    ∀ built, childGenesis fees parent parentCoins plainCoins ticker name documentUrl receiver
        change = .ok built →
      (∃ (before after : List TokenCoin) (burned : TokenCoin) (plain : List Coin),
        parentCoins = before ++ burned :: after ∧
        (burned.tokenId = parent ∧ burned.quantity = 1) ∧
        (∀ c ∈ before, ¬(c.tokenId = parent ∧ c.quantity = 1)) ∧
        built.draft.inputs = burned.coin :: plain ∧ plain.Subperm plainCoins ∧
        built.summary.burnedParent = some burned.coin.outpoint) ∧
      Message.decode built.message = .ok ⟨.nftChild, .nftChildGenesis, none,
        some ⟨ticker, name, documentUrl, none, 0⟩, none, [1]⟩ ∧
      fees.genesisFee? built.message.length 1 = some built.summary.fee ∧
      ∃ (leftover : Satoshi) (dropped : Int),
        built.draft.outputs =
          .ofMessage built.message :: .payTo receiver fees.dustLimit ::
            (if fees.dustLimit ≤ leftover then [.payTo change leftover] else []) ∧
        built.draft.inputSum = built.draft.outputSum + built.summary.fee.toInt +
          fees.perInput.toInt * built.draft.inputs.length + dropped ∧
        0 ≤ dropped ∧ dropped = if fees.dustLimit ≤ leftover then 0 else leftover.toInt := by
  refine ⟨fun id => childGenesis_eq_missingParent_iff, fun built h => ?_⟩
  obtain ⟨burned, message, hburned, hmessage, hcreate⟩ := childGenesis_eq_ok h
  obtain ⟨before, after, hcoins, hone, hbefore⟩ := Selection.selectParent_eq_ok_iff.1 hburned
  obtain ⟨leftover, hc⟩ := creates_of_create (by simp) hcreate
  obtain ⟨plain, hsub, hinputs⟩ := hc.inputs_eq
  obtain ⟨dropped, hdropped⟩ := hc.exists_dropped
  have hmessage' := hc.message_eq
  subst hmessage'
  exact ⟨⟨before, after, burned, plain, hcoins, hone, hbefore, hinputs, hsub,
    hc.burnedParent_eq⟩, Message.decode_childGenesis hmessage, hc.fee_eq, leftover, dropped,
    hc.outputs_eq, hdropped⟩

/-- A group to give examples with. -/
def sampleGroup : TokenId := ⟨⟨List.replicate 32 5, rfl⟩⟩

/-- Five units of the group, a unit of another token, and a unit of the group. -/
def sampleUnits : List TokenCoin :=
  [⟨sampleGroup, 5, ⟨"g", 1, 546, ""⟩⟩, ⟨⟨⟨List.replicate 32 8, rfl⟩⟩, 1, ⟨"o", 1, 546, ""⟩⟩,
    ⟨sampleGroup, 1, ⟨"g", 2, 546, ""⟩⟩]

theorem childGenesis_burns_parent_sample :
    ∃ built, childGenesis {} sampleGroup sampleUnits [⟨"p", 0, 10000, ""⟩] "NFT" "Child" "" ⟨"a"⟩
        ⟨"c"⟩ = .ok built ∧
      (∃ c ∈ sampleUnits, (c.tokenId = sampleGroup ∧ c.quantity = 1) ∧
        built.draft.inputs.head? = some c.coin) ∧
      ∃ m, Message.decode built.message = .ok m ∧ m.quantities = [1] := by
  obtain ⟨-, hbuilt⟩ := childGenesis_burns_parent {} sampleGroup sampleUnits
    [⟨"p", 0, 10000, ""⟩] "NFT" "Child" "" ⟨"a"⟩ ⟨"c"⟩
  have hb : ∃ built, childGenesis {} sampleGroup sampleUnits [⟨"p", 0, 10000, ""⟩] "NFT" "Child" ""
      ⟨"a"⟩ ⟨"c"⟩ = .ok built := ⟨_, by cbv⟩
  obtain ⟨built, hb⟩ := hb
  obtain ⟨⟨before, after, burned, plain, hcoins, hone, -, hinputs, -⟩, hm, -⟩ := hbuilt built hb
  refine ⟨built, hb, ⟨burned, ?_, hone, by rw [hinputs]; rfl⟩, _, hm, rfl⟩
  rw [hcoins]
  exact List.mem_append_right before (List.mem_cons_self ..)

end

end Assembly
end SimpleLedger
