import SimpleLedger.Proofs.Assembly.Send

/-!
# What a selection has budgeted for

A selection sets dust aside for every quantity that was asked for, and `Assembly.sendMany` pays dust
to every recipient.  It compares sums of quantities and not their numbers, so the recipients may be
more than the selection was made for.

* `Assembly.sendMany_balance`: each recipient too many costs one dust limit, and nothing else
  changes.
* `Assembly.sendMany_overspends`: two recipients may be paid what was selected for one, and the
  outputs are then worth more than the inputs.
* `Assembly.sendMany_pays_iff`: when the inputs pay for the outputs and the fee all the same.
-/

set_option autoImplicit false

namespace SimpleLedger
namespace Assembly

/-! ## The balance -/

theorem toInt_paidChange_le (fees : Fees) {leftover : Satoshi} (h : 0 ≤ leftover.toInt) :
    (paidChange fees leftover).toInt ≤ leftover.toInt := by
  rw [paidChange]
  split
  · exact Int.le_refl _
  · exact h

section

variable {fees : Fees} {id : TokenId} {amounts : List UInt64} {tokenCoins : List TokenCoin}
  {plainCoins : List Coin} {s : Selection} {t : TokenType} {recipients : List (Address × UInt64)}
  {change : ChangeAddresses} {built : Assembled SendSummary}

/-- A selection does not know who will be paid, so whom it was made for plays no part here. -/
theorem outputSum_spend_of_selects
    (hs : Selection.Selects fees id amounts tokenCoins plainCoins s) (message : Bytes) :
    (spend fees s t recipients message change).draft.outputSum =
      fees.dustLimit.toInt * recipients.length +
        (if 0 < s.tokenChange then fees.dustLimit.toInt else 0) +
          (paidChange fees s.change).toInt := by
  rw [spend]
  simp only [outputSum_outputs, hs.hasTokenChange_iff, List.length_append, List.length_map]
  by_cases hpos : 0 < s.tokenChange
  · simp only [if_pos hpos, List.length_singleton, Int.natCast_add, Int.mul_add]
    simp
  · simp only [if_neg hpos, List.length_nil, Nat.add_zero, Int.add_zero]

/-- **The balance of a SEND to any recipients.**  It is that of a SEND to the recipients whom the
selection was made for, less dust for each recipient too many. -/
theorem sendMany_balance
    (hs : Selection.Selects fees id amounts tokenCoins plainCoins s)
    (hcount : amounts.length < 2 ^ 63) (hb : sendMany fees s t recipients change = .ok built) :
    built.draft.inputSum = built.draft.outputSum + s.fee.toInt +
      fees.perInput.toInt * built.draft.inputs.length +
        (s.change.toInt - built.summary.change.toInt) -
          fees.dustLimit.toInt * (recipients.length - amounts.length) := by
  obtain ⟨-, -, -, -, message, -, rfl⟩ := sendMany_eq_ok hb
  have hdust := hs.dust_eq
  rw [Satoshi.toInt_ofCount hcount] at hdust
  rw [inputSum_spend hs, hdust, outputSum_spend_of_selects hs message, Int.mul_sub, spend]
  dsimp only
  omega

/-! ## Too many recipients -/

/-- **When the recipients are paid for.**  The inputs are worth the outputs and the fee just if the
dust for recipients whom the selection was not made for is no more than what it costs to spend the
inputs and the change that is dropped.  So it is whenever the recipients are no more than the
quantities asked for.  (No list in memory has `2 ^ 63` entries.) -/
theorem sendMany_pays_iff
    (hs : Selection.select fees id amounts tokenCoins plainCoins = .ok s)
    (hcount : amounts.length < 2 ^ 63)
    (hb : sendMany fees s t recipients change = .ok built) :
    (built.draft.outputSum + s.fee.toInt ≤ built.draft.inputSum ↔
        fees.dustLimit.toInt * (recipients.length - amounts.length) ≤
          fees.perInput.toInt * built.draft.inputs.length +
            (s.change.toInt - built.summary.change.toInt)) ∧
      (0 ≤ fees.dustLimit → 0 ≤ fees.perInput → recipients.length ≤ amounts.length →
        built.draft.outputSum + s.fee.toInt ≤ built.draft.inputSum) := by
  have hs := Selection.selects_of_select hs
  have hbalance := sendMany_balance hs hcount hb
  refine ⟨by omega, fun hdust hinput hle => ?_⟩
  rw [Int64.le_iff_toInt_le, Int64.toInt_zero] at hdust hinput
  have hspare : fees.dustLimit.toInt * (recipients.length - amounts.length) ≤ 0 :=
    Int.mul_nonpos_of_nonneg_of_nonpos hdust (by omega)
  have hspending : 0 ≤ fees.perInput.toInt * built.draft.inputs.length :=
    Int.mul_nonneg hinput (Int.natCast_nonneg _)
  have hdropped : built.summary.change.toInt ≤ s.change.toInt := by
    obtain ⟨-, -, -, -, message, -, rfl⟩ := sendMany_eq_ok hb
    exact toInt_paidChange_le fees hs.change_nonneg
  omega

/-- All that was selected for two recipients goes to a single one. -/
theorem sendMany_pays_iff_sample :
    ∃ built, sendMany {} sampleSelection .fungible [(⟨"a"⟩, 50)] (.single ⟨"c"⟩) = .ok built ∧
      built.draft.outputSum + 325 ≤ built.draft.inputSum := by
  have hb : ∃ built, sendMany {} sampleSelection .fungible [(⟨"a"⟩, 50)] (.single ⟨"c"⟩) =
      .ok built := ⟨_, by cbv⟩
  obtain ⟨built, hb⟩ := hb
  obtain ⟨-, hpays⟩ := sendMany_pays_iff select_sample (by decide) hb
  exact ⟨built, hb, hpays (by decide) (by decide) (by decide)⟩

/-- A coin with ten tokens and some currency. -/
def sampleCoin : TokenCoin := ⟨sampleToken, 10, ⟨"t", 1, 5000, ""⟩⟩

/-- **More recipients than were asked for may overspend.**  The selection is made for one recipient
of ten tokens, and two recipients of five are paid with it. -/
theorem sendMany_overspends :
    ∃ (s : Selection) (built : Assembled SendSummary),
      Selection.select {} sampleToken [10] [sampleCoin] [] = .ok s ∧
        sendMany {} s .fungible [(⟨"a"⟩, 5), (⟨"b"⟩, 5)] (.single ⟨"c"⟩) = .ok built ∧
          built.draft.inputSum < built.draft.outputSum + s.fee.toInt ∧
            built.draft.inputSum < built.draft.outputSum := by
  refine ⟨⟨sampleToken, [10], 4074, 232, 546, [sampleCoin.coin], 1, 10⟩, _, by cbv, by cbv, ?_, ?_⟩
  all_goals decide

end

end Assembly
end SimpleLedger
