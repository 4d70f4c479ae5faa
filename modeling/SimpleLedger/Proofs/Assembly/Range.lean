import SimpleLedger.Proofs.Assembly.Acceptance
import SimpleLedger.Proofs.Assembly.Creation
import SimpleLedger.Proofs.Funding.Range

/-!
# No amount leaves the range

With fees that are not large, and coins and recipients that are not too many, no step of selecting
coins and of assembling transactions leaves the range of amounts, and neither does the implied fee
of what is assembled.

* `Selection.select_ne_overflow` and `Assembly.create_ne_overflow` follow the arithmetic from step
  to step, with the bounds of every result.
* `Draft.exists_impliedFee?`: a draft has an implied fee if its totals are in range.
* `Assembly.StaysInRange` says both of the result of an assembly, and there is one lemma for each of
  the four that say when it does.
-/

set_option autoImplicit false

namespace SimpleLedger

open Satoshi (Within)

/-! ## Selections -/

namespace Selection

variable {fees : Fees} {amounts : List UInt64} {tokenCoins : List TokenCoin}
  {plainCoins : List Coin}

theorem sized_picked (h : Sized (tokenCoins.map TokenCoin.coin)) (id : TokenId)
    (amounts : List UInt64) : Sized ((picked id amounts tokenCoins).map TokenCoin.coin) :=
  h.of_subperm (subperm_map _ (picked_subperm id amounts tokenCoins))

/-- **No selection overflows.** -/
theorem select_ne_overflow (hfees : fees.Modest)
    (htokens : Sized (tokenCoins.map TokenCoin.coin)) (hplain : Sized plainCoins)
    (hcount : amounts.length ≤ 2 ^ 20) (id : TokenId) :
    select fees id amounts tokenCoins plainCoins ≠ .error .overflow := by
  rw [select]
  split
  · rintro ⟨⟩
  split
  · rintro ⟨⟩
  next target htarget =>
  rw [sumQuantities?_eq_some_iff.1 htarget, ← picked]
  refine checked_bind_ne_overflow (hfees.within_dust (by omega)) fun dust hdust => ?_
  refine checked_bind_ne_overflow (hfees.within_addInputs? (sized_picked htokens id amounts))
    fun worth hworth => ?_
  change (if heldBy (picked id amounts tokenCoins) < _ then _ else _) ≠ _
  split
  · rintro ⟨⟩
  extract_lets extra rest
  -- from here on all is the same with dust for the change in tokens and without
  have hrest (dust : Satoshi) (hlo : 0 ≤ dust.toInt) (hhi : dust.toInt ≤ 2 ^ 42) :
      rest dust ≠ .error .overflow := by
    refine checked_bind_ne_overflow (hfees.within_sendFee? hcount) fun fee hfee => ?_
    have hrequired : Within 0 (2 ^ 45) (dust.add? fee) :=
      Satoshi.within_add? (by omega) (by omega) (by decide) (by decide)
    refine checked_bind_ne_overflow hrequired fun required _ => ?_
    refine checked_bind_ne_overflow (hfees.exists_select? hplain required (by omega) (by omega))
      fun f hf => ?_
    have hleft : Within (-2 ^ 43) (2 ^ 53) (f.total.sub? dust) :=
      Satoshi.within_sub? (by omega) (by omega) (by decide) (by decide)
    have hchange : Within (-2 ^ 45) (2 ^ 53) (do (← f.total.sub? dust).sub? fee) :=
      hleft.bind fun left hlo hhi =>
        Satoshi.within_sub? (by omega) (by omega) (by decide) (by decide)
    refine checked_bind_ne_overflow hchange fun change _ => ?_
    split <;> rintro ⟨⟩
  split
  · have hmore : Within 0 (2 ^ 42) (dust.add? fees.dustLimit) := by
      obtain ⟨hlo, hhi⟩ := hfees.dustLimit
      exact Satoshi.within_add? (by omega) (by omega) (by decide) (by decide)
    exact checked_bind_ne_overflow hmore fun dust hdust => hrest dust hdust.1 hdust.2
  · exact hrest dust hdust.1 (by omega)

end Selection

/-! ## Implied fees -/

/-- A draft has an implied fee if no value in it is negative and its totals are in range. -/
theorem Draft.exists_impliedFee? {d : Draft} (hinputs : ∀ c ∈ d.inputs, 0 ≤ c.value)
    (hinputSum : d.inputSum < 2 ^ 63) (houtputs : ∀ o ∈ d.outputs, 0 ≤ o.value)
    (houtputSum : d.outputSum < 2 ^ 63) : ∃ fee, d.impliedFee? = some fee := by
  have hinputs : ∀ v ∈ d.inputs.map Coin.value, 0 ≤ v.toInt := by
    intro v hv
    obtain ⟨c, hc, rfl⟩ := List.mem_map.1 hv
    exact Int64.le_iff_toInt_le.1 (hinputs c hc)
  have houtputs : ∀ v ∈ d.outputs.map Output.value, 0 ≤ v.toInt := by
    intro v hv
    obtain ⟨o, ho, rfl⟩ := List.mem_map.1 hv
    exact Int64.le_iff_toInt_le.1 (houtputs o ho)
  have hinputSum' : ((d.inputs.map Coin.value).map Int64.toInt).sum = d.inputSum := by
    rw [List.map_map]
    rfl
  have houtputSum' : ((d.outputs.map Output.value).map Int64.toInt).sum = d.outputSum := by
    rw [List.map_map]
    rfl
  obtain ⟨inputs, hi⟩ := Satoshi.exists_sum? hinputs (by rwa [hinputSum'])
  obtain ⟨outputs, ho⟩ := Satoshi.exists_sum? houtputs (by rwa [houtputSum'])
  have hinputsLo := Satoshi.sum_toInt_nonneg hinputs
  have houtputsLo := Satoshi.sum_toInt_nonneg houtputs
  have hi' := Satoshi.toInt_of_sum? hi
  have ho' := Satoshi.toInt_of_sum? ho
  obtain ⟨fee, hfee, -⟩ : Within (-2 ^ 63) (2 ^ 63 - 1) (inputs.sub? outputs) :=
    Satoshi.within_sub? (by omega) (by omega) (by decide) (by decide)
  refine ⟨fee, ?_⟩
  rw [impliedFee?, inputTotal?, hi, outputTotal?, ho]
  exact hfee

namespace Assembly

variable {fees : Fees} {plainCoins : List Coin} {inputs : List Coin} {message : Bytes}
  {receivers : List Address} {leftover : Satoshi} {address : Address}

/-- A transaction with not too many inputs and receivers. -/
theorem exists_impliedFee?_outputs (hfees : fees.Modest) {as bs : List Coin} (has : Sized as)
    (hbs : Sized bs) (hcount : receivers.length ≤ 2 ^ 21) (hleftover : leftover.toInt ≤ 2 ^ 53) :
    ∃ fee, Draft.impliedFee? ⟨as ++ bs, outputs fees message receivers leftover address⟩ =
      some fee := by
  obtain ⟨hdustLo, hdustHi⟩ := hfees.dustLimit
  have hpaid : (paidChange fees leftover).toInt ≤ 2 ^ 53 := by
    rw [paidChange]
    split
    · exact hleftover
    · decide
  obtain ⟨hcountLo, hcountHi⟩ := hfees.dustLimit.mul_natCast receivers.length
  refine Draft.exists_impliedFee? (List.forall_mem_append.2 ⟨has.nonneg, hbs.nonneg⟩) ?_
    (fun o ho => ?_) ?_
  · have hasTotal := has.total_le
    have hbsTotal := hbs.total_le
    rw [Draft.inputSum, List.map_append, List.sum_append]
    omega
  · cases o with
    | message script => exact Int64.le_refl 0
    | payTo a v =>
      refine Int64.le_trans ?_ (dustLimit_le_of_mem ho)
      exact Int64.le_iff_toInt_le.2 hdustLo
  · rw [outputSum_outputs, Int.mul_comm]
    omega

/-! ## Assembled transactions -/

/-- No amount leaves the range, neither while the transaction is built nor when its implied fee is
computed. -/
def StaysInRange {Summary : Type} (result : Except Error (Assembled Summary)) : Prop :=
  result ≠ .error .overflow ∧
    ∀ built, result = .ok built → ∃ fee, built.draft.impliedFee? = some fee

section

variable {Summary : Type}

theorem staysInRange_error {e : Error} (h : e ≠ .overflow) :
    StaysInRange (.error e : Except Error (Assembled Summary)) :=
  ⟨fun he => h (Except.error.inj he), fun _ hok => by cases hok⟩

theorem staysInRange_ok {built : Assembled Summary}
    (h : ∃ fee, built.draft.impliedFee? = some fee) : StaysInRange (.ok built) := by
  refine ⟨by rintro ⟨⟩, fun built' hbuilt => ?_⟩
  cases hbuilt
  exact h

theorem staysInRange_bind {α : Type} {x : Except Error α}
    {f : α → Except Error (Assembled Summary)} (hx : x ≠ .error .overflow)
    (hf : ∀ a, x = .ok a → StaysInRange (f a)) : StaysInRange (x >>= f) := by
  cases x with
  | error e => exact staysInRange_error fun he => hx (congrArg Except.error he)
  | ok a => exact hf a rfl

end

section

variable {t : TokenType} {g : Genesis} {parent : Option Coin} {change : Address}

/-- **No creation overflows.** -/
theorem create_ne_overflow (hfees : fees.Modest) (hparent : Sized parent.toList)
    (hplain : Sized plainCoins) (hlength : message.length ≤ 2 ^ 20)
    (hcount : receivers.length ≤ 2 ^ 20) :
    create fees t g message parent plainCoins receivers change ≠ .error .overflow := by
  rw [create]
  refine checked_bind_ne_overflow (hfees.within_dust (by omega)) fun dust hdust => ?_
  refine checked_bind_ne_overflow (hfees.within_genesisFee? hlength hcount) fun fee hfee => ?_
  have hrequired : Within 0 (2 ^ 45) (dust.add? fee) :=
    Satoshi.within_add? (by omega) (by omega) (by decide) (by decide)
  refine checked_bind_ne_overflow hrequired fun required hrequired => ?_
  extract_lets rest
  have hrest (already : Satoshi) (hlo : -2 ^ 41 ≤ already.toInt) (hhi : already.toInt ≤ 2 ^ 52) :
      rest already ≠ .error .overflow := by
    refine checked_bind_ne_overflow (hfees.exists_select? hplain required hlo hhi) fun f hf => ?_
    have hleftover : Within (-2 ^ 46) (2 ^ 53) (f.total.sub? required) :=
      Satoshi.within_sub? (by omega) (by omega) (by decide) (by decide)
    refine checked_bind_ne_overflow hleftover fun leftover _ => ?_
    split <;> rintro ⟨⟩
  rcases parent with _ | c
  · exact hrest 0 (by decide) (by decide)
  · have halready : Within (-2 ^ 41) (2 ^ 52) (c.value.sub? fees.perInput) := by
      obtain ⟨hvalueLo, hvalueHi⟩ := hparent.value_le (List.mem_singleton_self c)
      obtain ⟨hinputLo, hinputHi⟩ := hfees.perInput
      exact Satoshi.within_sub? (by omega) (by omega) (by decide) (by decide)
    exact checked_bind_ne_overflow halready fun already h => hrest already h.1 h.2

/-- **No draft of a creation** has an implied fee out of range. -/
theorem create_staysInRange (hfees : fees.Modest) (hparent : Sized parent.toList)
    (hplain : Sized plainCoins) (hlength : message.length ≤ 2 ^ 20)
    (hcount : receivers.length ≤ 2 ^ 20) :
    StaysInRange (create fees t g message parent plainCoins receivers change) := by
  refine ⟨create_ne_overflow hfees hparent hplain hlength hcount, fun built hbuilt => ?_⟩
  obtain ⟨fee, required, already, f, hfee, hrequired, halready, hf, leftover, hleftover, -, rfl⟩ :=
    create_eq_ok hbuilt
  have hinputs := hplain.of_subperm (Funding.subperm_of_select? hf)
  refine exists_impliedFee?_outputs hfees hparent hinputs (by omega) ?_
  obtain ⟨fee', hfee', hfeeLo, -⟩ := hfees.within_genesisFee? hlength hcount
  obtain rfl : fee = fee' := Option.some.inj (hfee.symm.trans hfee')
  have htotal := (Funding.select?_eq_some hf).2
  have hparentHi := (hfees.worth_bounds hparent).2
  have hinputsHi := (hfees.worth_bounds hinputs).2
  have hdust := (hfees.dustLimit.mul_natCast receivers.length).1
  rw [Satoshi.toInt_ofCount (by omega), Int.mul_comm] at hrequired
  omega

theorem genesis_staysInRange (hfees : fees.Modest) (hplain : Sized plainCoins) (t : TokenType)
    (g : Genesis) (receiver : Address) (batonReceiver : Option Address) (change : Address) :
    StaysInRange (genesis fees t g plainCoins receiver batonReceiver change) := by
  rw [genesis]
  split
  · exact staysInRange_error (by rintro ⟨⟩)
  dsimp only
  split
  · exact staysInRange_error (by rintro ⟨⟩)
  next message hmessage =>
  have hlength := Message.length_le_of_encodeGenesis hmessage
  have hnone : Sized (none : Option Coin).toList :=
    ⟨Nat.zero_le _, List.forall_mem_nil _, by decide⟩
  refine create_staysInRange hfees hnone hplain (hlength.trans (by decide)) ?_
  cases batonReceiver <;> exact Nat.le_of_ble_eq_true rfl

theorem childGenesis_staysInRange (hfees : fees.Modest) {parentCoins : List TokenCoin}
    (hparent : Sized (parentCoins.map TokenCoin.coin)) (hplain : Sized plainCoins)
    (parent : TokenId) (ticker name documentUrl : String) (receiver change : Address) :
    StaysInRange (childGenesis fees parent parentCoins plainCoins ticker name documentUrl receiver
      change) := by
  rw [childGenesis]
  refine staysInRange_bind (fun h => ?_) fun burned hburned => ?_
  · cases (Selection.selectParent_eq_error_iff.1 h).1
  split
  · exact staysInRange_error (by rintro ⟨⟩)
  next message hmessage =>
  have hmem := List.mem_map_of_mem (f := TokenCoin.coin) (Selection.mem_of_selectParent hburned).1
  have hlength := Message.length_le_of_encodeGenesis hmessage
  exact create_staysInRange hfees (hparent.of_subperm (List.singleton_subperm_iff.2 hmem)) hplain
    (hlength.trans (by decide)) Nat.one_le_two_pow

end

section

variable {fees' : Fees} {id : TokenId} {amounts : List UInt64} {tokenCoins : List TokenCoin}
  {s : Selection} {recipients : List (Address × UInt64)}

/-- The fees of the transaction need not be those of the selection, nor the recipients those whom it
was made for. -/
theorem exists_impliedFee?_spend (hfees : fees.Modest) (hfees' : fees'.Modest)
    (htokens : Sized (tokenCoins.map TokenCoin.coin)) (hplain : Sized plainCoins)
    (hamounts : amounts.length ≤ 2 ^ 20)
    (hs : Selection.Selects fees id amounts tokenCoins plainCoins s)
    (hcount : recipients.length ≤ 2 ^ 20) (t : TokenType) (change : ChangeAddresses) :
    ∃ fee, (spend fees' s t recipients message change).draft.impliedFee? = some fee := by
  obtain ⟨plain, hsub, hinputs⟩ := hs.inputs_eq
  have htokens := Selection.sized_picked htokens id amounts
  have hplain := hplain.of_subperm hsub
  rw [spend, hinputs]
  refine exists_impliedFee?_outputs hfees' htokens hplain ?_ ?_
  · rw [List.length_append, List.length_map]
    split
    · rw [List.length_singleton]
      omega
    · rw [List.length_nil]
      omega
  · have hbalance := hs.balance
    have hdust := hs.dust_eq
    have hdustLimit := hfees.dustLimit.1
    have hdusts := (hfees.dustLimit.mul_natCast amounts.length).1
    have htokensHi := (hfees.worth_bounds htokens).2
    have hplainHi := (hfees.worth_bounds hplain).2
    obtain ⟨fee, hfee, hfeeLo, -⟩ := hfees.within_sendFee? hamounts
    obtain rfl : s.fee = fee := Option.some.inj (hs.fee_eq.symm.trans hfee)
    rw [hinputs, Fees.worth_append] at hbalance
    rw [Satoshi.toInt_ofCount (by omega), Int.mul_comm] at hdust
    split at hdust <;> omega

theorem send_staysInRange (hfees : fees.Modest) (hfees' : fees'.Modest)
    (htokens : Sized (tokenCoins.map TokenCoin.coin)) (hplain : Sized plainCoins)
    (hamounts : amounts.length ≤ 2 ^ 20)
    (hs : Selection.Selects fees id amounts tokenCoins plainCoins s) (t : TokenType)
    (recipient : Address) (change : ChangeAddresses) :
    StaysInRange (send fees' s t recipient change) := by
  rw [send]
  split
  · exact staysInRange_error (by rintro ⟨⟩)
  exact staysInRange_ok (exists_impliedFee?_spend hfees hfees' htokens hplain hamounts hs
    Nat.one_le_two_pow t change)

theorem sendMany_staysInRange (hfees : fees.Modest) (hfees' : fees'.Modest)
    (htokens : Sized (tokenCoins.map TokenCoin.coin)) (hplain : Sized plainCoins)
    (hamounts : amounts.length ≤ 2 ^ 20)
    (hs : Selection.Selects fees id amounts tokenCoins plainCoins s)
    (hcount : recipients.length ≤ 2 ^ 20) (t : TokenType) (change : ChangeAddresses) :
    StaysInRange (sendMany fees' s t recipients change) := by
  rcases accepts_or_refuses s recipients with haccepts | ⟨e, hrefuses⟩
  · have hlen : s.quantities.length ≤ 2 := by
      rw [hs.quantities_eq]
      split <;> simp
    obtain ⟨message, -, hok⟩ := sendMany_of_accepts fees' t change hlen haccepts
    rw [hok]
    exact staysInRange_ok
      (exists_impliedFee?_spend hfees hfees' htokens hplain hamounts hs hcount t change)
  · rw [sendMany_of_refuses fees' t change hrefuses]
    refine staysInRange_error ?_
    cases hrefuses <;> rintro ⟨⟩

end

end Assembly
end SimpleLedger
