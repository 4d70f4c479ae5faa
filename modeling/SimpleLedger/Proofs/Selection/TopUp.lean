import SimpleLedger.Proofs.Selection

/-!
# Topping up with plain coins

The second pass takes plain coins by ascending value until the total exceeds what is required, and
whether the total suffices is asked of what was taken.  So it passes through coins that are worth
less than the fee for spending them, and a total that is exactly what is required does not stop it.

* `Selection.shortfall_unavoidable`: a selection that fails for want of currency would have failed
  with any part of the plain coins that leaves out nothing but coins worth their fees.
* `Selection.shortfall_by_costly_coin`: a coin that is worth less than its fee may stand in the way.
* `Selection.topUp_stops`: no plain coin is taken beyond a total that exceeds what is required.
* `Selection.topUp_beyond_exact_total`: beyond a total that meets it exactly one is taken.
-/

set_option autoImplicit false

namespace SimpleLedger
namespace Selection

variable {fees : Fees} {id : TokenId} {amounts : List UInt64} {tokenCoins : List TokenCoin}
  {plainCoins : List Coin} {s : Selection}

/-! ## Selections that fail -/

/-- The first pass does not depend on plain coins, so whatever they are, the second pass starts from
the same amounts. -/
theorem FirstPass.eq (pass pass' : FirstPass fees id amounts tokenCoins) : pass = pass' := by
  obtain ⟨worth, fee, required, -, -, -, hworth, hfee, hrequired⟩ := pass
  obtain ⟨worth', fee', required', -, -, -, hworth', hfee', hrequired'⟩ := pass'
  obtain rfl : fee = fee' := Option.some.inj (hfee.symm.trans hfee')
  obtain rfl : worth = worth' := Int64.toInt_inj.1 (hworth.trans hworth'.symm)
  obtain rfl : required = required' := Int64.toInt_inj.1 (hrequired.trans hrequired'.symm)
  rfl

/-- A selection that fails for want of currency has passed the first pass, and the plain coins fall
short of what that left to pay. -/
theorem exists_fallsShort {required available : Satoshi}
    (h : select fees id amounts tokenCoins plainCoins =
      .error (.selection (.insufficientCurrency required available))) :
    ∃ pass : FirstPass fees id amounts tokenCoins, pass.required = required ∧
      Funding.FallsShort fees plainCoins pass.worth.toInt required.toInt := by
  have houtcome := outcome_select fees id amounts tokenCoins plainCoins
  rw [h] at houtcome
  cases houtcome with
  | funded pass hattempt =>
    cases hattempt with
    | short hf hlt => exact ⟨pass, rfl, (Funding.total_lt_iff hf).1 hlt⟩

theorem not_fallsShort (h : select fees id amounts tokenCoins plainCoins = .ok s)
    (pass : FirstPass fees id amounts tokenCoins) :
    ¬Funding.FallsShort fees plainCoins pass.worth.toInt pass.required.toInt := by
  have houtcome := outcome_select fees id amounts tokenCoins plainCoins
  rw [h] at houtcome
  cases houtcome with
  | funded pass' hattempt =>
    rw [pass.eq pass', ← hattempt.criterion.short_iff]
    rintro ⟨_, _, h⟩
    cases h

/-- **Want of currency that cannot be helped.**  When a selection fails for want of currency, what
is required are the outputs with tokens and the fee, and no part of the plain coins reaches it
together with the coins with tokens, if the coins left out are together worth at least what it costs
to spend them.  If each plain coin is worth its fee, then no part of them reaches it at all.  Nor
would the selection have succeeded before plain coins that are together worth their fees were
added. -/
theorem shortfall_unavoidable {required available : Satoshi}
    (h : select fees id amounts tokenCoins plainCoins =
      .error (.selection (.insufficientCurrency required available))) :
    (∃ fee, fees.sendFee? amounts.length = some fee ∧
      required.toInt = outlay fees id amounts tokenCoins fee) ∧
    (∀ chosen rest : List Coin, plainCoins.Perm (chosen ++ rest) → 0 ≤ fees.worth rest →
      fees.worth ((picked id amounts tokenCoins).map TokenCoin.coin) + fees.worth chosen <
        required.toInt) ∧
    ((∀ c ∈ plainCoins, fees.perInput ≤ c.value) →
      ∀ chosen : List Coin, chosen.Subperm plainCoins →
        fees.worth ((picked id amounts tokenCoins).map TokenCoin.coin) + fees.worth chosen <
          required.toInt) ∧
    (∀ fewer more : List Coin, plainCoins.Perm (fewer ++ more) → 0 ≤ fees.worth more →
      ∀ s, select fees id amounts tokenCoins fewer ≠ .ok s) := by
  obtain ⟨pass, rfl, hshort⟩ := exists_fallsShort h
  have hpart (chosen rest : List Coin) (hperm : plainCoins.Perm (chosen ++ rest))
      (hrest : 0 ≤ fees.worth rest) :
      fees.worth ((picked id amounts tokenCoins).map TokenCoin.coin) + fees.worth chosen <
        pass.required.toInt := by
    rw [← pass.worth_eq]
    exact (Funding.fallsShort_iff.1 (hshort.of_perm_append hperm hrest)).2
  refine ⟨⟨pass.fee, pass.fee_eq, pass.required_eq⟩, hpart, fun hvalues chosen hsub => ?_,
    fun fewer more hperm hmore s hs => ?_⟩
  · obtain ⟨sub, hsubperm, hsub⟩ := hsub
    obtain ⟨rest, hrest⟩ := hsub.exists_perm_append
    have hperm : plainCoins.Perm (chosen ++ rest) := hrest.trans (hsubperm.append_right rest)
    refine hpart chosen rest hperm (Fees.worth_nonneg fun c hc => hvalues c ?_)
    exact hperm.mem_iff.2 (List.mem_append_right _ hc)
  · exact not_fallsShort hs pass (hshort.of_perm_append hperm hmore)

/-- A token to give examples with. -/
def topUpToken : TokenId := ⟨⟨List.replicate 32 3, rfl⟩⟩

/-- A coin with ten tokens that cannot be sent without 380 satoshi more. -/
def topUpCoin : TokenCoin := ⟨topUpToken, 10, ⟨"t", 1, 546, ""⟩⟩

/-- Two plain coins that are worth more than their fees and do not suffice, be it one of them or
both. -/
theorem shortfall_unavoidable_sample :
    ∃ (p q : Coin) (required available : Satoshi),
      select {} topUpToken [10] [topUpCoin] [p, q] =
        .error (.selection (.insufficientCurrency required available)) ∧
      0 < Fees.worth {} [p] ∧ 0 < Fees.worth {} [q] ∧
      Fees.worth {} ((picked topUpToken [10] [topUpCoin]).map TokenCoin.coin) +
        Fees.worth {} [q] < required.toInt ∧
      Fees.worth {} ((picked topUpToken [10] [topUpCoin]).map TokenCoin.coin) +
        Fees.worth {} [p, q] < required.toInt ∧
      ∀ s, select {} topUpToken [10] [topUpCoin] [q] ≠ .ok s := by
  have h : select {} topUpToken [10] [topUpCoin] [⟨"p", 0, 300, ""⟩, ⟨"q", 0, 340, ""⟩] =
      .error (.selection (.insufficientCurrency 778 742)) := by
    cbv
  obtain ⟨-, hpart, hany, hfewer⟩ := shortfall_unavoidable h
  have hswap : List.Perm [(⟨"p", 0, 300, ""⟩ : Coin), ⟨"q", 0, 340, ""⟩]
      ([⟨"q", 0, 340, ""⟩] ++ [⟨"p", 0, 300, ""⟩]) := List.Perm.swap _ _ _
  exact ⟨_, _, _, _, h, by decide, by decide, hpart _ _ hswap (by decide),
    hany (by decide) _ (List.Subperm.refl _), hfewer _ _ hswap (by decide)⟩

/-- **A coin that is worth less than its fee may stand in the way.**  One of two plain coins would
do, and without the other the selection succeeds, but the smaller one goes first. -/
theorem shortfall_by_costly_coin :
    ∃ (required available : Satoshi) (s : Selection),
      select {} topUpToken [10] [topUpCoin] [⟨"p", 0, 100, ""⟩, ⟨"q", 0, 530, ""⟩] =
        .error (.selection (.insufficientCurrency required available)) ∧
      required.toInt ≤ Fees.worth {} ((picked topUpToken [10] [topUpCoin]).map TokenCoin.coin) +
        Fees.worth {} [⟨"q", 0, 530, ""⟩] ∧
      select {} topUpToken [10] [topUpCoin] [⟨"q", 0, 530, ""⟩] = .ok s := by
  have hpicked : picked topUpToken [10] [topUpCoin] = [topUpCoin] := by cbv
  refine ⟨778, 732, ⟨topUpToken, [10], 2, 232, 546, [topUpCoin.coin, ⟨"q", 0, 530, ""⟩], 1, 10⟩,
    by cbv, ?_, by cbv⟩
  rw [hpicked]
  decide

/-! ## Selections that succeed -/

/-- **Plain coins are taken until the total exceeds what is required.**  If the coins with tokens
are worth more than the outputs with tokens and the fee, then no plain coin is taken.  Without the
last plain coin that is taken, the inputs are not worth more than that. -/
theorem topUp_stops (h : select fees id amounts tokenCoins plainCoins = .ok s) :
    (s.dust.toInt + s.fee.toInt < fees.worth s.tokenInputs → s.plainInputs = []) ∧
      ∀ before last, s.plainInputs = before ++ [last] →
        fees.worth s.tokenInputs + fees.worth before ≤ s.dust.toInt + s.fee.toInt := by
  obtain ⟨worth, required, f, hworth, hrequired, hf, hplain⟩ := (selects_of_select h).exists_funding
  have hshorter := (Funding.select?_takes hf).le_of_shorter
  rw [hworth, hrequired, ← hplain] at hshorter
  refine ⟨fun hlt => ?_, fun before last hlast => hshorter before ?_ ?_⟩
  · by_contra hne
    have := hshorter [] List.nil_prefix (Ne.symm hne)
    rw [Fees.worth_nil] at this
    omega
  · rw [hlast]
    exact List.prefix_append before [last]
  · rw [hlast]
    exact fun heq => List.cons_ne_nil last [] (List.self_eq_append_right.1 heq)

/-- A coin that pays for itself, and two plain coins that are both needed for another. -/
theorem topUp_stops_sample :
    ∃ (rich : TokenCoin) (s s' : Selection) (before : List Coin) (last : Coin),
      select {} topUpToken [10] [rich] [⟨"q", 0, 900, ""⟩] = .ok s ∧
      s.dust.toInt + s.fee.toInt < Fees.worth {} s.tokenInputs ∧ s.plainInputs = [] ∧
      select {} topUpToken [10] [topUpCoin] [⟨"q", 0, 900, ""⟩, ⟨"p", 0, 400, ""⟩] = .ok s' ∧
      s'.plainInputs = before ++ [last] ∧ before ≠ [] ∧
      Fees.worth {} s'.tokenInputs + Fees.worth {} before ≤ s'.dust.toInt + s'.fee.toInt := by
  have hrich : select {} topUpToken [10] [⟨topUpToken, 10, ⟨"r", 1, 5000, ""⟩⟩]
      [⟨"q", 0, 900, ""⟩] =
        .ok ⟨topUpToken, [10], 4074, 232, 546, [⟨"r", 1, 5000, ""⟩], 1, 10⟩ := by
    cbv
  have h : select {} topUpToken [10] [topUpCoin] [⟨"q", 0, 900, ""⟩, ⟨"p", 0, 400, ""⟩] =
      .ok ⟨topUpToken, [10], 624, 232, 546,
        [topUpCoin.coin, ⟨"p", 0, 400, ""⟩, ⟨"q", 0, 900, ""⟩], 1, 10⟩ := by
    cbv
  exact ⟨_, _, _, [⟨"p", 0, 400, ""⟩], ⟨"q", 0, 900, ""⟩, hrich, by decide,
    (topUp_stops hrich).1 (by decide), h, rfl, List.cons_ne_nil _ _, (topUp_stops h).2 _ _ rfl⟩

/-- **A total that is exactly what is required does not stop the taking.**  The first of two plain
coins makes up for what is missing to the satoshi, and the second is taken all the same. -/
theorem topUp_beyond_exact_total :
    ∃ (s : Selection) (before : List Coin) (last : Coin),
      select {} topUpToken [10] [topUpCoin] [⟨"p", 0, 528, ""⟩, ⟨"q", 0, 1000, ""⟩] = .ok s ∧
      s.plainInputs = before ++ [last] ∧
      s.dust.toInt + s.fee.toInt ≤ Fees.worth {} s.tokenInputs + Fees.worth {} before := by
  refine ⟨⟨topUpToken, [10], 852, 232, 546,
    [topUpCoin.coin, ⟨"p", 0, 528, ""⟩, ⟨"q", 0, 1000, ""⟩], 1, 10⟩, [⟨"p", 0, 528, ""⟩],
    ⟨"q", 0, 1000, ""⟩, by cbv, rfl, by decide⟩

end Selection
end SimpleLedger
