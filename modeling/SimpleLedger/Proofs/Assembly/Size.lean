import SimpleLedger.Proofs.Assembly.Budget
import SimpleLedger.Proofs.Assembly.Creation
import SimpleLedger.Proofs.Fees

/-!
# Fees cover the size of a transaction

The default fees are meant for a satoshi a byte.  A selection does not know whether there will be
change, in tokens or in currency: the fee of a SEND counts one output and one quantity less than
there may be.  The relay margin makes up for that.

* `Draft.size` is the number of bytes that the defaults are estimates for.
* `Assembly.size_le_of_outputs`: of the outputs only their number and the message matter.
* `Assembly.fees_cover_size`: what a transaction leaves to whoever confirms it is at least its size.
-/

set_option autoImplicit false

namespace SimpleLedger

/-! ## Sizes -/

/-- The bytes that an output counts for.  A script stands in the draft as two digits a byte, and
takes nine bytes more. -/
def Output.size : Output → Nat
  | .message script => script.length / 2 + 9
  | .payTo .. => 34

/-- The estimated size of a transaction in bytes. -/
def Draft.size (d : Draft) : Nat :=
  10 + 148 * d.inputs.length + (d.outputs.map Output.size).sum

/-- Whoever confirms the transaction is left a satoshi a byte.  The totals are sums of integers, and
where checked arithmetic has a value for the implied fee, that is at least the size too. -/
def Draft.PaysForSize (d : Draft) : Prop :=
  (d.size : Int) ≤ d.inputSum - d.outputSum ∧
    ∀ fee, d.impliedFee? = some fee → (d.size : Int) ≤ fee.toInt

theorem Draft.PaysForSize.of_le {d : Draft} (h : (d.size : Int) ≤ d.inputSum - d.outputSum) :
    d.PaysForSize :=
  ⟨h, fun _ hfee => h.trans_eq (Draft.toInt_of_impliedFee? hfee).symm⟩

theorem Output.size_ofMessage (message : Bytes) :
    (Output.ofMessage message).size = message.length + 9 := by
  rw [ofMessage, size, Hex.length_encode, Nat.mul_div_cancel_left _ (by decide)]

theorem Output.sum_size_payTo (as : List Address) (dust : Satoshi) :
    ((as.map (.payTo · dust)).map size).sum = 34 * as.length := by
  induction as with
  | nil => rfl
  | cons a as ih =>
    rw [List.map_cons, List.map_cons, List.sum_cons, ih, List.length_cons]
    simp only [size]
    omega

namespace Assembly

theorem sum_size_changeOutputs_le (fees : Fees) (change : Satoshi) (address : Address) :
    ((changeOutputs fees change address).map Output.size).sum ≤ 34 := by
  rw [changeOutputs]
  split
  · exact Nat.le_refl 34
  · exact Nat.zero_le 34

/-- There is one output for each receiver, one for change at most, and the message. -/
theorem size_le_of_outputs {fees : Fees} {d : Draft} {message : Bytes} {receivers : List Address}
    {leftover : Satoshi} {address : Address}
    (h : d.outputs = outputs fees message receivers leftover address) :
    d.size ≤ 53 + 148 * d.inputs.length + message.length + 34 * receivers.length := by
  have hchange := sum_size_changeOutputs_le fees leftover address
  rw [Draft.size, h, outputs, List.cons_append, List.map_cons, List.sum_cons, List.map_append,
    List.sum_append, Output.size_ofMessage, Output.sum_size_payTo]
  omega

/-! ## Payments -/

/-- With the default fees a SEND pays for its size.  With change in tokens there is one quantity
more than there are recipients. -/
theorem paysForSize_of_pays {id : TokenId} {recipients : List (Address × UInt64)}
    {tokenCoins : List TokenCoin} {plainCoins : List Coin} {s : Selection} {t : TokenType}
    {change : ChangeAddresses} {built : Assembled SendSummary}
    (hs : Selection.Selects {} id (recipients.map Prod.snd) tokenCoins plainCoins s)
    (hb : Pays {} s t change built recipients) : built.draft.PaysForSize := by
  obtain ⟨message, hmessage, rfl⟩ := hb.eq_spend hs
  obtain ⟨⟨-, hcount⟩, -⟩ := Message.encodeSend_eq_ok_iff.1 hmessage
  have hlength := Message.length_of_encodeSend hmessage
  have hholders := length_holders recipients s.tokenChange change.tokens
  have hquantities :=
    Message.length_withChange (recipients.map Prod.snd) (some s.tokenChange)
  rw [List.length_map] at hquantities
  have hpos : 0 < recipients.length := by
    rw [← List.length_map Prod.snd]
    exact List.length_pos_iff.2 hs.nonempty
  have hfee : s.fee.toInt = 93 * recipients.length + 139 := by
    have hfee := hs.fee_eq
    rw [List.length_map] at hfee
    exact Fees.toInt_of_sendFee?_default (by omega) hfee
  have hinputs : (spend {} s t recipients message change).draft.inputSum =
      s.dust.toInt + s.fee.toInt + s.change.toInt + 148 * s.inputs.length :=
    inputSum_spend hs message
  have houtputs : (spend {} s t recipients message change).draft.outputSum =
      s.dust.toInt + (paidChange {} s.change).toInt := outputSum_spend hs message hcount
  have hpaid := toInt_paidChange_le {} hs.change_nonneg
  have hsize : (spend {} s t recipients message change).draft.size ≤
      53 + 148 * s.inputs.length + message.length +
        34 * (holders recipients s.tokenChange change.tokens).length :=
    size_le_of_outputs (outputs_spend hs message)
  exact .of_le (by omega)

/-! ## Creations -/

/-- With the default fees creating a token pays for the size of the transaction. -/
theorem Creates.paysForSize {message : Bytes} {parent : Option Coin} {plainCoins : List Coin}
    {receivers : List Address} {change : Address} {built : Assembled GenesisSummary}
    {leftover : Satoshi}
    (h : Creates {} message parent plainCoins receivers change built leftover)
    (hlength : message.length < 2 ^ 63) (hcount : receivers.length + 1 < 2 ^ 63) :
    built.draft.PaysForSize := by
  have hfee := Fees.toInt_of_genesisFee?_default hlength hcount h.fee_eq
  have hbalance : built.draft.inputSum = built.draft.outputSum + built.summary.fee.toInt +
      148 * built.draft.inputs.length + (leftover.toInt - (paidChange {} leftover).toInt) :=
    h.balance
  have hpaid := toInt_paidChange_le {} h.leftover_nonneg
  have hsize := size_le_of_outputs h.outputs_eq
  exact .of_le (by omega)

theorem paysForSize_of_create {t : TokenType} {g : Genesis} {message : Bytes}
    {parent : Option Coin} {plainCoins : List Coin} {receivers : List Address} {change : Address}
    {built : Assembled GenesisSummary} (hmessage : Message.encodeGenesis t g = .ok message)
    (hcount : receivers.length ≤ 2)
    (h : create {} t g message parent plainCoins receivers change = .ok built) :
    built.draft.PaysForSize := by
  have hlength := Message.length_le_of_encodeGenesis hmessage
  rw [Message.maxLength] at hlength
  obtain ⟨leftover, hcreates⟩ := creates_of_create (by omega) h
  exact hcreates.paysForSize (by omega) (by omega)

/-! ## Everything -/

/-- **Fees cover the size.**  Let a transaction be assembled with the default fees: a SEND to the
recipients whom its inputs were selected for, a GENESIS, or the GENESIS of a child.  What is left to
whoever confirms it is at least its size, whether there is change or not, and whether somebody gets
the right to mint or not. -/
theorem fees_cover_size :
    (∀ (id : TokenId) (recipients : List (Address × UInt64)) (tokenCoins : List TokenCoin)
      (plainCoins : List Coin) (s : Selection) (t : TokenType) (change : ChangeAddresses)
      (built : Assembled SendSummary),
      Selection.select {} id (recipients.map Prod.snd) tokenCoins plainCoins = .ok s →
      Pays {} s t change built recipients → built.draft.PaysForSize) ∧
    (∀ (t : TokenType) (g : Genesis) (plainCoins : List Coin) (receiver : Address)
      (batonReceiver : Option Address) (change : Address) (built : Assembled GenesisSummary),
      genesis {} t g plainCoins receiver batonReceiver change = .ok built →
        built.draft.PaysForSize) ∧
    ∀ (parent : TokenId) (parentCoins : List TokenCoin) (plainCoins : List Coin)
      (ticker name documentUrl : String) (receiver change : Address)
      (built : Assembled GenesisSummary),
      childGenesis {} parent parentCoins plainCoins ticker name documentUrl receiver change =
        .ok built → built.draft.PaysForSize := by
  refine ⟨fun id recipients tokenCoins plainCoins s t change built hs hb => ?_,
    fun t g plainCoins receiver batonReceiver change built h => ?_,
    fun parent parentCoins plainCoins ticker name documentUrl receiver change built h => ?_⟩
  · exact paysForSize_of_pays (Selection.selects_of_select hs) hb
  · obtain ⟨-, g', message, -, hmessage, hcreate⟩ := genesis_eq_ok h
    refine paysForSize_of_create hmessage ?_ hcreate
    cases batonReceiver <;> simp
  · obtain ⟨burned, message, -, hmessage, hcreate⟩ := childGenesis_eq_ok h
    exact paysForSize_of_create hmessage (by simp) hcreate

/-- Two recipients and change of both sorts; a token with the right to mint; a child. -/
theorem fees_cover_size_sample :
    (∃ built, sendMany {} sampleSelection .fungible sampleRecipients (.single ⟨"c"⟩) = .ok built ∧
      built.draft.PaysForSize) ∧
    (∃ built, genesis {} .fungible ⟨⟨"TST", "Test", "", none, 2⟩, some 7, 1000⟩
        [⟨"p", 0, 10000, ""⟩] ⟨"a"⟩ (some ⟨"m"⟩) ⟨"c"⟩ = .ok built ∧ built.draft.PaysForSize) ∧
    ∃ built, childGenesis {} sampleGroup sampleUnits [⟨"p", 0, 10000, ""⟩] "NFT" "Child" "" ⟨"a"⟩
      ⟨"c"⟩ = .ok built ∧ built.draft.PaysForSize := by
  obtain ⟨hsend, hgenesis, hchild⟩ := fees_cover_size
  obtain ⟨payment, hpayment⟩ := exists_sendMany_sample
  have htoken : ∃ built, genesis {} .fungible ⟨⟨"TST", "Test", "", none, 2⟩, some 7, 1000⟩
      [⟨"p", 0, 10000, ""⟩] ⟨"a"⟩ (some ⟨"m"⟩) ⟨"c"⟩ = .ok built := ⟨_, by cbv⟩
  have hunique : ∃ built, childGenesis {} sampleGroup sampleUnits [⟨"p", 0, 10000, ""⟩] "NFT"
      "Child" "" ⟨"a"⟩ ⟨"c"⟩ = .ok built := ⟨_, by cbv⟩
  obtain ⟨token, htoken⟩ := htoken
  obtain ⟨unique, hunique⟩ := hunique
  exact ⟨⟨payment, hpayment, hsend _ _ _ _ _ _ _ _ select_sample (.many hpayment)⟩,
    ⟨token, htoken, hgenesis _ _ _ _ _ _ _ htoken⟩, unique, hunique,
    hchild _ _ _ _ _ _ _ _ _ hunique⟩

end Assembly
end SimpleLedger
