import SimpleLedger.Proofs.Assembly.Genesis
import SimpleLedger.Proofs.Selection

/-!
# What can be funded

A SEND, a GENESIS and the GENESIS of a child pay in the same way: something is there already,
something is required, and plain coins are added.  `Funding.Criterion` says of all of them when that
fails, once nothing else can.

* `Selection.criterion`, `Assembly.criterion_of_genesis` and `Assembly.criterion_of_childGenesis`
  say what is there and what is required.
* `Funding.funding_exact` puts them together with what a funding takes.
-/

set_option autoImplicit false

namespace SimpleLedger

/-! ## Sending -/

/-- A selection that passes the first pass fails just if the plain coins fall short. -/
theorem Selection.criterion {fees : Fees} {id : TokenId} {amounts : List UInt64}
    {tokenCoins : List TokenCoin} {plainCoins : List Coin} (hne : amounts ≠ [])
    (htotal : totalQuantity amounts ≤ maxQuantity)
    (hheld : totalQuantity amounts ≤ heldBy (tokenCoins.filter (·.tokenId = id)))
    (h : select fees id amounts tokenCoins plainCoins ≠ .error .overflow) :
    ∃ fee, fees.sendFee? amounts.length = some fee ∧
      Funding.Criterion fees plainCoins
        (fees.worth ((picked id amounts tokenCoins).map TokenCoin.coin))
        (outlay fees id amounts tokenCoins fee)
        (select fees id amounts tokenCoins plainCoins) := by
  have houtcome := outcome_select fees id amounts tokenCoins plainCoins
  generalize select fees id amounts tokenCoins plainCoins = result at houtcome h ⊢
  cases houtcome with
  | emptyRequest hnil => exact absurd hnil hne
  | quantityOverflow _ hlt => omega
  | overflow _ _ => exact absurd rfl h
  | insufficientTokens _ hrequired havailable hlt => omega
  | funded pass hattempt =>
    refine ⟨pass.fee, pass.fee_eq, ?_⟩
    rw [← pass.worth_eq, ← pass.required_eq]
    exact hattempt.criterion

/-! ## Creating -/

namespace Assembly

variable {fees : Fees} {t : TokenType} {g : Genesis} {message : Bytes} {parent : Option Coin}
  {plainCoins : List Coin} {receivers : List Address} {change : Address}

theorem criterion_of_create (hcount : receivers.length < 2 ^ 63)
    (h : create fees t g message parent plainCoins receivers change ≠ .error .overflow) :
    ∃ fee, fees.genesisFee? message.length receivers.length = some fee ∧
      Funding.Criterion fees plainCoins (fees.worth parent.toList)
        (fees.dustLimit.toInt * receivers.length + fee.toInt)
        (create fees t g message parent plainCoins receivers change) := by
  have houtcome := outcome_create fees t g message parent plainCoins receivers change
  generalize create fees t g message parent plainCoins receivers change = result at houtcome h ⊢
  cases houtcome with
  | overflow => exact absurd rfl h
  | funded hfee hrequired halready hattempt =>
    refine ⟨_, hfee, ?_⟩
    rw [Satoshi.toInt_ofCount hcount] at hrequired
    rw [← halready, ← hrequired]
    exact hattempt.criterion

/-- A GENESIS whose message can be written fails just if the plain coins fall short. -/
theorem criterion_of_genesis {receiver : Address} {batonReceiver : Option Address}
    (ht : t ≠ .nftChild)
    (hmessage : Message.encodeGenesis t { g with mintBatonVout := batonReceiver.map fun _ => 2 } =
      .ok message)
    (h : genesis fees t g plainCoins receiver batonReceiver change ≠ .error .overflow) :
    ∃ fee, fees.genesisFee? message.length (batonReceiver.toList.length + 1) = some fee ∧
      Funding.Criterion fees plainCoins 0
        (fees.dustLimit.toInt * (batonReceiver.toList.length + 1) + fee.toInt)
        (genesis fees t g plainCoins receiver batonReceiver change) := by
  have heq : genesis fees t g plainCoins receiver batonReceiver change =
      create fees t { g with mintBatonVout := batonReceiver.map fun _ => 2 } message none plainCoins
        (receiver :: batonReceiver.toList) change := by
    rw [genesis, if_neg ht]
    simp only [hmessage]
  rw [heq] at h ⊢
  refine criterion_of_create ?_ h
  cases batonReceiver <;> simp

/-- The GENESIS of a child that has a parent, and whose message can be written, fails just if the
plain coins fall short of what the parent does not pay for. -/
theorem criterion_of_childGenesis {id : TokenId} {parentCoins : List TokenCoin} {burned : TokenCoin}
    {ticker name documentUrl : String} {receiver : Address}
    (hburned : Selection.selectParent id parentCoins = .ok burned)
    (hmessage : Message.encodeChildGenesis ticker name documentUrl = .ok message)
    (h : childGenesis fees id parentCoins plainCoins ticker name documentUrl receiver change ≠
      .error .overflow) :
    ∃ fee, fees.genesisFee? message.length 1 = some fee ∧
      Funding.Criterion fees plainCoins (burned.coin.value.toInt - fees.perInput.toInt)
        (fees.dustLimit.toInt + fee.toInt)
        (childGenesis fees id parentCoins plainCoins ticker name documentUrl receiver change) := by
  have heq : childGenesis fees id parentCoins plainCoins ticker name documentUrl receiver change =
      create fees .nftChild (Genesis.child ticker name documentUrl) message (some burned.coin)
        plainCoins [receiver] change := by
    rw [childGenesis, hburned]
    simp only [hmessage, bind, Except.bind]
  rw [heq] at h ⊢
  simpa using criterion_of_create (by simp) h

end Assembly

/-! ## Everything that pays with coins -/

namespace Funding

/-- **What funding takes, and when it suffices.**  There is a funding unless an amount that comes up
leaves the range.  Its total is what was there and the worth of its inputs, and these are the first
prefix of the coins by ascending value whose total exceeds what is required, or else all coins.  So
a SEND, a GENESIS and the GENESIS of a child, once their other checks pass and if no amount leaves
the range, fail for want of currency just if no prefix exceeds what is required and all coins do not
meet it exactly; and if every coin is worth its fee, they succeed just if all coins suffice. -/
theorem funding_exact :
    (∀ (fees : Fees) (coins : List Coin) (already required : Satoshi),
      IsStableSort Coin.value coins (order coins) ∧
      ((∃ f, select? fees coins already required = some f) ↔
        Fits fees already.toInt required.toInt (order coins)) ∧
      ∀ f, select? fees coins already required = some f →
        f.total.toInt = already.toInt + fees.worth f.inputs ∧
          IsFirstBeyond fees already.toInt required.toInt (order coins) f.inputs) ∧
    (∀ (fees : Fees) (id : TokenId) (amounts : List UInt64) (tokenCoins : List TokenCoin)
      (plainCoins : List Coin), amounts ≠ [] → totalQuantity amounts ≤ maxQuantity →
      totalQuantity amounts ≤ Selection.heldBy (tokenCoins.filter (·.tokenId = id)) →
      Selection.select fees id amounts tokenCoins plainCoins ≠ .error .overflow →
      ∃ fee, fees.sendFee? amounts.length = some fee ∧
        Criterion fees plainCoins
          (fees.worth ((Selection.picked id amounts tokenCoins).map TokenCoin.coin))
          (Selection.outlay fees id amounts tokenCoins fee)
          (Selection.select fees id amounts tokenCoins plainCoins)) ∧
    (∀ (fees : Fees) (t : TokenType) (g : Genesis) (plainCoins : List Coin) (receiver : Address)
      (batonReceiver : Option Address) (change : Address) (message : Bytes), t ≠ .nftChild →
      Message.encodeGenesis t { g with mintBatonVout := batonReceiver.map fun _ => 2 } =
        .ok message →
      Assembly.genesis fees t g plainCoins receiver batonReceiver change ≠ .error .overflow →
      ∃ fee, fees.genesisFee? message.length (batonReceiver.toList.length + 1) = some fee ∧
        Criterion fees plainCoins 0
          (fees.dustLimit.toInt * (batonReceiver.toList.length + 1) + fee.toInt)
          (Assembly.genesis fees t g plainCoins receiver batonReceiver change)) ∧
    (∀ (fees : Fees) (id : TokenId) (parentCoins : List TokenCoin) (plainCoins : List Coin)
      (ticker name documentUrl : String) (receiver change : Address) (burned : TokenCoin)
      (message : Bytes), Selection.selectParent id parentCoins = .ok burned →
      Message.encodeChildGenesis ticker name documentUrl = .ok message →
      Assembly.childGenesis fees id parentCoins plainCoins ticker name documentUrl receiver change ≠
        .error .overflow →
      ∃ fee, fees.genesisFee? message.length 1 = some fee ∧
        Criterion fees plainCoins (burned.coin.value.toInt - fees.perInput.toInt)
          (fees.dustLimit.toInt + fee.toInt)
          (Assembly.childGenesis fees id parentCoins plainCoins ticker name documentUrl receiver
            change)) := by
  refine ⟨fun fees coins already required => ⟨isStableSort_order coins, exists_select?_iff,
    fun f hf => ⟨(select?_eq_some hf).2, isFirstBeyond_of_select? hf⟩⟩, ?_, ?_, ?_⟩
  · intro fees id amounts tokenCoins plainCoins hne htotal hheld h
    exact Selection.criterion hne htotal hheld h
  · intro fees t g plainCoins receiver batonReceiver change message ht hmessage h
    exact Assembly.criterion_of_genesis ht hmessage h
  · intro fees id parentCoins plainCoins ticker name documentUrl receiver change burned message
      hburned hmessage h
    exact Assembly.criterion_of_childGenesis hburned hmessage h

/-- A funding whose first coin is worth less than its fee; a selection whose inputs are worth just
what is required; a GENESIS that the same coins do not pay for; and the GENESIS of a child that its
parent alone pays for. -/
theorem funding_exact_sample :
    ∃ (id : TokenId) (c u : TokenCoin) (p q : Coin) (g : Genesis) (f : Funding) (s : Selection)
      (child : Assembled GenesisSummary) (message childMessage : Bytes),
      select? {} [q, p] 0 300 = some f ∧ f.inputs = [p, q] ∧
      IsFirstBeyond {} 0 300 (order [q, p]) f.inputs ∧
      Selection.select {} id [10] [c] [q] = .ok s ∧ s.change = 0 ∧
      ¬FallsShort {} [q] (Fees.worth {} ((Selection.picked id [10] [c]).map TokenCoin.coin))
        (Selection.outlay {} id [10] [c] s.fee) ∧
      Message.encodeGenesis .fungible g = .ok message ∧
      (∃ fee, Fees.genesisFee? {} message.length 1 = some fee ∧
        FallsShort {} [q, p] 0 (546 + fee.toInt)) ∧
      Message.encodeChildGenesis "N" "" "" = .ok childMessage ∧
      Assembly.childGenesis {} id [u] [] "N" "" "" ⟨"a"⟩ ⟨"b"⟩ = .ok child ∧
      ∃ fee, Fees.genesisFee? {} childMessage.length 1 = some fee ∧
        546 + fee.toInt ≤ u.coin.value.toInt - 148 + Fees.worth {} [] := by
  let id : TokenId := ⟨⟨List.replicate 32 7, rfl⟩⟩
  let c : TokenCoin := ⟨id, 10, ⟨"t", 1, 546, ""⟩⟩
  let u : TokenCoin := ⟨id, 1, ⟨"u", 1, 2000, ""⟩⟩
  let p : Coin := ⟨"p", 0, 100, ""⟩
  let q : Coin := ⟨"q", 0, 528, ""⟩
  let g : Genesis := ⟨⟨"T", "", "", none, 0⟩, none, 5⟩
  obtain ⟨hfunding, hselect, hgenesis, hchild⟩ := funding_exact
  have hf : select? {} [q, p] 0 300 = some ⟨[p, q], 332⟩ := by cbv
  have hs : Selection.select {} id [10] [c] [q] =
      .ok ⟨id, [10], 0, 232, 546, [c.coin, q], 1, 10⟩ := by
    cbv
  obtain ⟨message, hmessage⟩ : ∃ message, Message.encodeGenesis .fungible g = .ok message :=
    ⟨_, by cbv⟩
  have hg : Assembly.genesis {} .fungible g [q, p] ⟨"a"⟩ none ⟨"b"⟩ =
      .error (.selection (.insufficientCurrency 751 332)) := by
    cbv
  obtain ⟨childMessage, hchildMessage⟩ :
      ∃ message, Message.encodeChildGenesis "N" "" "" = .ok message := ⟨_, by cbv⟩
  obtain ⟨child, hc⟩ : ∃ child,
      Assembly.childGenesis {} id [u] [] "N" "" "" ⟨"a"⟩ ⟨"b"⟩ = .ok child := ⟨_, by cbv⟩
  obtain ⟨fee, hfee, hcriterion⟩ := hselect {} id [10] [c] [q] (List.cons_ne_nil _ _) (by decide)
    (by decide) (by simp [hs])
  obtain rfl : (232 : Satoshi) = fee := Option.some.inj (.trans (by decide) hfee)
  obtain ⟨fee₁, hfee₁, hcriterion₁⟩ := hgenesis {} .fungible g [q, p] ⟨"a"⟩ none ⟨"b"⟩ message
    (by decide) hmessage (by simp [hg])
  obtain ⟨fee₂, hfee₂, hcriterion₂⟩ := hchild {} id [u] [] "N" "" "" ⟨"a"⟩ ⟨"b"⟩ u childMessage
    (by cbv) hchildMessage (by simp [hc])
  refine ⟨id, c, u, p, q, g, _, _, child, message, childMessage, hf, rfl,
    ((hfunding {} [q, p] 0 300).2.2 _ hf).2, hs, rfl, ?_, hmessage, ⟨fee₁, hfee₁, ?_⟩,
    hchildMessage, hc, fee₂, hfee₂, (hcriterion₂.ok_iff (by simp)).1 ⟨child, hc⟩⟩
  · rw [← hcriterion.short_iff, hs]
    rintro ⟨_, _, h⟩
    cases h
  · exact hcriterion₁.short_iff.1 ⟨_, _, hg⟩

end Funding
end SimpleLedger
