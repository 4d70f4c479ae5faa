import SimpleLedger.Fees
import SimpleLedger.Proofs.Satoshi

/-!
# Fees as integers

* `Fees.toInt_of_sendFee?` and `Fees.toInt_of_genesisFee?`: what a fee is, once it is in range.
* `Fees.Modest.within_sendFee?` and `Fees.Modest.within_genesisFee?`: it is, if no term of the fees
  is large and the transaction has no more than a million or so outputs.
-/

set_option autoImplicit false

namespace SimpleLedger
namespace Fees

variable {fees : Fees} {n length : Nat} {fee : Satoshi}

/-! ## What fees are -/

theorem toInt_of_outputFee? (hn : n < 2 ^ 63) (h : fees.outputFee? n = some fee) :
    fee.toInt = n * fees.perOutput.toInt := by
  rw [outputFee?, Satoshi.mul?_eq_some_iff, Satoshi.toInt_ofCount hn] at h
  exact h

theorem toInt_of_messageSize? (hn : n < 2 ^ 63) (h : fees.messageSize? n = some fee) :
    fee.toInt = fees.messageBase.toInt + n * fees.perQuantity.toInt := by
  rw [messageSize?, Option.bind_eq_bind, Option.bind_eq_some_iff] at h
  obtain ⟨quantities, hquantities, h⟩ := h
  rw [Satoshi.mul?_eq_some_iff, Satoshi.toInt_ofCount hn] at hquantities
  rw [Satoshi.add?_eq_some_iff.1 h, hquantities]

theorem toInt_of_relayFee? (hn : n < 2 ^ 63) (h : fees.relayFee? n = some fee) :
    fee.toInt = (n + 1) * fees.relayMargin.toInt := by
  rw [relayFee?, Option.bind_eq_bind, Option.bind_eq_some_iff] at h
  obtain ⟨count, hcount, h⟩ := h
  rw [Satoshi.add?_eq_some_iff, Satoshi.toInt_ofCount hn] at hcount
  rw [Satoshi.mul?_eq_some_iff.1 h, hcount]
  rfl

theorem succCount?_eq (hn : n + 1 < 2 ^ 63) : Satoshi.succCount? n = some (n + 1) := by
  rw [Satoshi.succCount?, if_pos]
  exact Nat.lt_trans hn (by decide)

/-- One output more than the recipients is counted, and one margin more for the message. -/
theorem toInt_of_sendFee? (hn : n + 1 < 2 ^ 63) (h : fees.sendFee? n = some fee) :
    fee.toInt = (n + 1) * fees.perOutput.toInt +
      (fees.messageBase.toInt + n * fees.perQuantity.toInt) + (n + 1) * fees.relayMargin.toInt := by
  simp only [sendFee?, succCount?_eq hn, Option.bind_eq_bind, Option.bind_some,
    Option.bind_eq_some_iff, Satoshi.add?_eq_some_iff] at h
  obtain ⟨outputs, houtputs, message, hmessage, sum, hsum, relay, hrelay, hfee⟩ := h
  rw [hfee, hsum, toInt_of_outputFee? hn houtputs, toInt_of_messageSize? (by omega) hmessage,
    toInt_of_relayFee? (by omega) hrelay]
  push_cast
  rfl

theorem toInt_of_genesisFee? (hlength : length < 2 ^ 63) (hn : n + 1 < 2 ^ 63)
    (h : fees.genesisFee? length n = some fee) :
    fee.toInt =
      (n + 1) * fees.perOutput.toInt + length + (n + 1) * fees.relayMargin.toInt := by
  simp only [genesisFee?, succCount?_eq hn, Option.bind_eq_bind, Option.bind_some,
    Option.bind_eq_some_iff, Satoshi.add?_eq_some_iff] at h
  obtain ⟨outputs, houtputs, sum, hsum, relay, hrelay, hfee⟩ := h
  rw [hfee, hsum, toInt_of_outputFee? hn houtputs, Satoshi.toInt_ofCount hlength,
    toInt_of_relayFee? (by omega) hrelay]
  push_cast
  rfl

section

variable {n length : Nat} {fee : Satoshi}

/-- What a SEND costs by default. -/
theorem toInt_of_sendFee?_default (hn : n + 1 < 2 ^ 63)
    (h : ({} : Fees).sendFee? n = some fee) : fee.toInt = 93 * n + 139 := by
  have hfee : fee.toInt = (n + 1) * 34 + (55 + n * 9) + (n + 1) * 50 := toInt_of_sendFee? hn h
  omega

/-- What a GENESIS costs by default. -/
theorem toInt_of_genesisFee?_default (hlength : length < 2 ^ 63) (hn : n + 1 < 2 ^ 63)
    (h : ({} : Fees).genesisFee? length n = some fee) : fee.toInt = 84 * n + 84 + length := by
  have hfee : fee.toInt = (n + 1) * 34 + length + (n + 1) * 50 := toInt_of_genesisFee? hlength hn h
  omega

end

/-! ## Modest terms -/

/-- Not negative, and no more than a million or so. -/
def IsSmall (s : Satoshi) : Prop := 0 ≤ s.toInt ∧ s.toInt ≤ 2 ^ 20

theorem IsSmall.mul_natCast {s : Satoshi} (h : IsSmall s) (n : Nat) :
    0 ≤ n * s.toInt ∧ n * s.toInt ≤ n * 2 ^ 20 :=
  ⟨Int.mul_nonneg (Int.natCast_nonneg n) h.1,
    Int.mul_le_mul_of_nonneg_left h.2 (Int.natCast_nonneg n)⟩

/-- All terms are small. -/
structure Modest (fees : Fees) : Prop where
  dustLimit : IsSmall fees.dustLimit
  perInput : IsSmall fees.perInput
  perOutput : IsSmall fees.perOutput
  messageBase : IsSmall fees.messageBase
  perQuantity : IsSmall fees.perQuantity
  relayMargin : IsSmall fees.relayMargin

theorem modest_default : Modest {} := by
  constructor <;> exact ⟨by decide, by decide⟩

section

open Satoshi (Within)

theorem IsSmall.within_mul? {s : Satoshi} (h : IsSmall s) {c : Satoshi} (hlo : 0 ≤ c.toInt)
    (hhi : c.toInt ≤ 2 ^ 21) : Within 0 (2 ^ 21 * 2 ^ 20) (c.mul? s) :=
  Satoshi.within_mul? hlo hhi h.1 h.2 (by decide)

theorem toInt_ofCount_bounds (hn : n ≤ 2 ^ 21) :
    0 ≤ (Satoshi.ofCount n).toInt ∧ (Satoshi.ofCount n).toInt ≤ 2 ^ 21 := by
  rw [Satoshi.toInt_ofCount (by omega)]
  omega

namespace Modest

/-- Dust for as many outputs. -/
theorem within_dust (h : fees.Modest) (hn : n ≤ 2 ^ 21) :
    Within 0 (2 ^ 41) (fees.dustLimit.mul? (Satoshi.ofCount n)) := by
  obtain ⟨hlo, hhi⟩ := toInt_ofCount_bounds hn
  exact Satoshi.within_mul? h.dustLimit.1 h.dustLimit.2 hlo hhi (by decide)

theorem within_outputFee? (h : fees.Modest) (hn : n ≤ 2 ^ 21) :
    Within 0 (2 ^ 41) (fees.outputFee? n) := by
  obtain ⟨hlo, hhi⟩ := toInt_ofCount_bounds hn
  exact h.perOutput.within_mul? hlo hhi

theorem within_messageSize? (h : fees.Modest) (hn : n ≤ 2 ^ 21) :
    Within 0 (2 ^ 42) (fees.messageSize? n) := by
  obtain ⟨hlo, hhi⟩ := toInt_ofCount_bounds hn
  obtain ⟨hbaseLo, hbaseHi⟩ := h.messageBase
  refine (h.perQuantity.within_mul? hlo hhi).bind fun quantities hqlo hqhi => ?_
  exact Satoshi.within_add? (by omega) (by omega) (by decide) (by decide)

theorem within_relayFee? (h : fees.Modest) (hn : n ≤ 2 ^ 20) :
    Within 0 (2 ^ 41) (fees.relayFee? n) := by
  have hcount : Within 0 (2 ^ 21) ((Satoshi.ofCount n).add? 1) := by
    refine Satoshi.within_add? ?_ ?_ (by decide) (by decide)
    all_goals
      rw [Satoshi.toInt_ofCount (by omega), Int64.toInt_one]
      omega
  exact hcount.bind fun count hlo hhi => h.relayMargin.within_mul? hlo hhi

/-- The fee of a SEND to a million or so recipients. -/
theorem within_sendFee? (h : fees.Modest) (hn : n ≤ 2 ^ 20) :
    Within 0 (2 ^ 44) (fees.sendFee? n) := by
  rw [sendFee?, succCount?_eq (by omega), Option.bind_eq_bind, Option.bind_some]
  refine (h.within_outputFee? (by omega)).bind fun outputs holo hohi => ?_
  refine (h.within_messageSize? (by omega)).bind fun message hmlo hmhi => ?_
  have hsum : Within 0 (2 ^ 43) (outputs.add? message) :=
    Satoshi.within_add? (by omega) (by omega) (by decide) (by decide)
  refine hsum.bind fun sum hslo hshi => ?_
  refine (h.within_relayFee? hn).bind fun relay hrlo hrhi => ?_
  exact Satoshi.within_add? (by omega) (by omega) (by decide) (by decide)

/-- The fee of a GENESIS with a message of a million or so bytes and as many outputs. -/
theorem within_genesisFee? (h : fees.Modest) (hlength : length ≤ 2 ^ 20) (hn : n ≤ 2 ^ 20) :
    Within 0 (2 ^ 44) (fees.genesisFee? length n) := by
  obtain ⟨hlengthLo, hlengthHi⟩ := @toInt_ofCount_bounds length (by omega)
  rw [genesisFee?, succCount?_eq (by omega), Option.bind_eq_bind, Option.bind_some]
  refine (h.within_outputFee? (by omega)).bind fun outputs holo hohi => ?_
  have hsum : Within 0 (2 ^ 43) (outputs.add? (Satoshi.ofCount length)) :=
    Satoshi.within_add? (by omega) (by omega) (by decide) (by decide)
  refine hsum.bind fun sum hslo hshi => ?_
  refine (h.within_relayFee? hn).bind fun relay hrlo hrhi => ?_
  exact Satoshi.within_add? (by omega) (by omega) (by decide) (by decide)

end Modest
end

end Fees
end SimpleLedger
