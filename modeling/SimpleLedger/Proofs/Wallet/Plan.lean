import SimpleLedger.Proofs.Assembly.Genesis
import SimpleLedger.Proofs.Assembly.Send
import SimpleLedger.Proofs.Wallet.Backend
import SimpleLedger.Wallet.Action

/-!
# What an action would broadcast

`Action.Plans` is the draft of an action as a relation to the backend that it looks at, without the
calls and the steps.  Of all the arithmetic behind it, the ledger only sees which coins go in and
what the message says:

* `Action.Moves` relates the coins with tokens that go in to the message.
* `Action.Plans.exists_moves`: every planned draft spends such coins and plain ones, all of them
  from the backend.
-/

set_option autoImplicit false

namespace SimpleLedger
namespace Wallet

/-! ## Plans -/

/-- The draft of a payment. -/
inductive PlansPayment (config : Config) (b : Backend) (token : Descriptor)
    (recipients : List (Address × UInt64)) : Draft → Prop
  | intro {built : Assembled SendSummary} (hne : recipients ≠ [])
      (hnetwork : ∀ a ∈ recipients.map Prod.fst, onNetwork config.network a = true)
      (hbuilt : buildPayment config.fees token recipients
        (b.tokenCoinsOf token.tokenId config.allowUnconfirmed)
        (Backend.spendable config.allowUnconfirmed b.plainCoins) ⟨b.tokenChange, b.change⟩ =
          .ok built) : PlansPayment config b token recipients built.draft

/-- The draft of an action, where the backend looks the same during all of it. -/
inductive Action.Plans (config : Config) (b : Backend) : Action → Draft → Prop
  | send {id : TokenId} {amount : String} {recipient : Address} {token : Descriptor}
      {raw : UInt64} {d : Draft} (htoken : b.descriptor? id = some token)
      (hraw : token.toRaw amount = .ok raw)
      (h : PlansPayment config b token [(recipient, raw)] d) :
      Plans config b (.send id amount recipient) d
  | sendNft {id : TokenId} {recipient : Address} {token : Descriptor} {d : Draft}
      (htoken : b.descriptor? id = some token) (hnft : token.isNft = true)
      (h : PlansPayment config b token [(recipient, 1)] d) :
      Plans config b (.sendNft id recipient) d
  | sendMany {id : TokenId} {recipients : List (Address × UInt64)} {token : Descriptor}
      {d : Draft} (htoken : b.descriptor? id = some token)
      (h : PlansPayment config b token recipients d) : Plans config b (.sendMany id recipients) d
  | create {tokenType : TokenType} {g : Genesis} {receiver : Address}
      {batonReceiver : Option Address} {built : Assembled GenesisSummary}
      (hnetwork : ∀ a ∈ receiver :: batonReceiver.toList, onNetwork config.network a = true)
      (hbuilt : Assembly.genesis config.fees tokenType g
        (Backend.spendable config.allowUnconfirmed b.plainCoins) receiver batonReceiver b.change =
          .ok built) :
      Plans config b (.create tokenType g receiver batonReceiver) built.draft
  | createChild {parent : TokenId} {ticker name documentUrl : String} {receiver : Address}
      {built : Assembled GenesisSummary}
      (hnetwork : ∀ a ∈ [receiver], onNetwork config.network a = true)
      (hbuilt : Assembly.childGenesis config.fees parent
        (b.tokenCoinsOf parent config.allowUnconfirmed)
        (Backend.spendable config.allowUnconfirmed b.plainCoins) ticker name documentUrl receiver
        b.change = .ok built) :
      Plans config b (.createChild parent ticker name documentUrl receiver) built.draft

/-- Whom an action pays, in their order. -/
def Action.payees : Action → List Address
  | .send _ _ recipient | .sendNft _ recipient => [recipient]
  | .sendMany _ recipients => recipients.map Prod.fst
  | .create _ _ receiver batonReceiver => receiver :: batonReceiver.toList
  | .createChild _ _ _ _ receiver => [receiver]

/-! ## Tokens that go in -/

/-- Whether an action burns a unit of a token. -/
def Action.burns (id : TokenId) : Action → Bool
  | .createChild parent .. => parent = id
  | _ => false

/-- What an action does with the tokens that go into its transaction, and how the message tells
it: a SEND sends all of them, a GENESIS takes none, that of a child a single unit. -/
inductive Action.Moves (a : Action) (picked : List TokenCoin) (m : Message) : Prop
  | send {id : TokenId} (ha : ∀ t, a.burns t = false) (hkind : m.kind.isSend = true)
      (hid : m.tokenId = some id) (hpicked : ∀ c ∈ picked, c.tokenId = id)
      (hsum : Selection.heldBy picked = totalQuantity m.quantities)
  | create (ha : ∀ t, a.burns t = false) (hkind : m.kind.isGenesis = true)
      (htype : m.tokenType ≠ .nftChild) (hpicked : picked = [])
  | createChild {c : TokenCoin} (ha : ∀ t, a.burns t = decide (c.tokenId = t))
      (hkind : m.kind.isGenesis = true) (htype : m.tokenType = .nftChild) (hpicked : picked = [c])
      (hc : c.quantity = 1)

/-- A payment was selected for and assembled. -/
theorem buildPayment_eq_ok {fees : Fees} {token : Descriptor}
    {recipients : List (Address × UInt64)} {tokenCoins : List TokenCoin} {plainCoins : List Coin}
    {change : ChangeAddresses} {built : Assembled SendSummary}
    (h : buildPayment fees token recipients tokenCoins plainCoins change = .ok built) :
    ∃ s, Selection.select fees token.tokenId (recipients.map Prod.snd) tokenCoins plainCoins =
        .ok s ∧
      Assembly.Pays fees s token.kind.tokenType change built recipients := by
  rw [buildPayment] at h
  obtain ⟨s, hs, h⟩ := bind_eq_ok_iff.1 h
  refine ⟨s, hs, ?_⟩
  split at h
  next recipient q => exact .one h
  next => exact .many h

/-- The tokens of a payment all go to its recipients or come back as change. -/
theorem PlansPayment.exists_picked {config : Config} {b : Backend} {token : Descriptor}
    {recipients : List (Address × UInt64)} {d : Draft}
    (h : PlansPayment config b token recipients d) :
    ∃ (picked : List TokenCoin) (plain : List Coin) (m : Message),
      d.inputs = picked.map TokenCoin.coin ++ plain ∧ picked.Subperm b.tokens ∧
      plain.Subperm b.plain ∧ d.message? = some m ∧ m.kind.isSend = true ∧
      m.tokenId = some token.tokenId ∧ (∀ c ∈ picked, c.tokenId = token.tokenId) ∧
      Selection.heldBy picked = totalQuantity m.quantities := by
  obtain ⟨-, -, hbuilt⟩ := h
  obtain ⟨s, hs, hpays⟩ := buildPayment_eq_ok hbuilt
  have hs := Selection.selects_of_select hs
  obtain ⟨message, hmessage, rfl⟩ := hpays.eq_spend hs
  obtain ⟨plain, hplain, hinputs⟩ := hs.inputs_eq
  obtain ⟨m, hm, hkind, -, hid, hquantities⟩ := Assembly.exists_message_spend hmessage
  refine ⟨_, plain, m, hinputs,
    (Selection.picked_subperm _ _ _).trans (b.tokenCoinsOf_sublist _ _).subperm,
    hplain.trans (Backend.spendable_sublist _ _).subperm, hm, hkind, hid,
    fun c => Selection.tokenId_of_mem_picked, ?_⟩
  rw [hquantities, Assembly.totalQuantity_withChange hs]

/-- **What a planned draft spends** is in the backend, and the message agrees with it. -/
theorem Action.Plans.exists_moves {config : Config} {b : Backend} {a : Action} {d : Draft}
    (h : a.Plans config b d) :
    ∃ (picked : List TokenCoin) (plain : List Coin) (m : Message),
      d.inputs = picked.map TokenCoin.coin ++ plain ∧ picked.Subperm b.tokens ∧
      plain.Subperm b.plain ∧ d.message? = some m ∧ a.Moves picked m := by
  have hpayment : ∀ {token recipients}, (∀ t, a.burns t = false) →
      PlansPayment config b token recipients d →
      ∃ (picked : List TokenCoin) (plain : List Coin) (m : Message),
        d.inputs = picked.map TokenCoin.coin ++ plain ∧ picked.Subperm b.tokens ∧
        plain.Subperm b.plain ∧ d.message? = some m ∧ a.Moves picked m := by
    intro token recipients ha hp
    obtain ⟨picked, plain, m, hinputs, hpicked, hplain, hm, hkind, hid, htoken, hsum⟩ :=
      hp.exists_picked
    exact ⟨picked, plain, m, hinputs, hpicked, hplain, hm, .send ha hkind hid htoken hsum⟩
  cases h with
  | send _ _ hp => exact hpayment (fun _ => rfl) hp
  | sendNft _ _ hp => exact hpayment (fun _ => rfl) hp
  | sendMany _ hp => exact hpayment (fun _ => rfl) hp
  | create _ hbuilt =>
    obtain ⟨htype, g, message, -, hmessage, hcreate⟩ := Assembly.genesis_eq_ok hbuilt
    obtain ⟨plain, hplain, hinputs⟩ := Assembly.inputs_of_create hcreate
    obtain ⟨m, hm, hkind, rfl⟩ := Assembly.exists_message_of_create hmessage hcreate
    exact ⟨[], plain, m, hinputs, List.nil_subperm,
      hplain.trans (Backend.spendable_sublist _ _).subperm, hm,
      .create (fun _ => rfl) hkind htype rfl⟩
  | createChild _ hbuilt =>
    obtain ⟨burned, message, hburned, hmessage, hcreate⟩ := Assembly.childGenesis_eq_ok hbuilt
    obtain ⟨hmem, rfl, hone⟩ := Selection.mem_of_selectParent hburned
    obtain ⟨plain, hplain, hinputs⟩ := Assembly.inputs_of_create hcreate
    obtain ⟨m, hm, hkind, htype⟩ := Assembly.exists_message_of_create hmessage hcreate
    exact ⟨[burned], plain, m, hinputs,
      List.singleton_subperm_iff.2 ((b.tokenCoinsOf_sublist _ _).subset hmem),
      hplain.trans (Backend.spendable_sublist _ _).subperm, hm,
      .createChild (fun _ => rfl) hkind htype rfl hone⟩

end Wallet
end SimpleLedger
