import SimpleLedger.Proofs.Selection.Greedy

/-!
# The order of the listing

A backend lists its coins in an order of its own, and sorting keeps that order among coins that
compare equal.  So a selection from a permuted list may take another coin of the same quantity, and
what that coin is worth in currency decides how much the second pass has to add.

* `Selection.map_picked_eq`: whatever the quantity of a coin determines is the same of the coins
  that the first pass takes, place by place.
* `Selection.Selects.amounts_eq`: two selections from permuted lists agree in what they say of
  tokens.
* `Funding.Attempt.error_iff`: a second pass fails in the same way with coins of the same values.
* `Selection.listing_order_immaterial` says how much of a selection survives, under weaker and
  stronger assumptions on coins that compare equal.
-/

set_option autoImplicit false

namespace SimpleLedger

/-! ## Coins of the same values -/

namespace Fees

variable {fees : Fees} {coins coins' : List Coin}

theorem worth_eq_of_map_value_eq (h : coins'.map Coin.value = coins.map Coin.value) :
    fees.worth coins' = fees.worth coins := by
  have hworth (as : List Coin) : fees.worth as =
      ((as.map Coin.value).map fun v => v.toInt - fees.perInput.toInt).sum := by
    rw [List.map_map]
    rfl
  rw [hworth, hworth, h]

end Fees

namespace Funding

variable {fees : Fees} {already required total : Satoshi} {coins coins' : List Coin}
  {f f' : Funding}

theorem take?_values_eq (hvalues : coins'.map Coin.value = coins.map Coin.value)
    (hf : take? fees required total coins = some f)
    (hf' : take? fees required total coins' = some f') :
    f'.total = f.total ∧ f'.inputs.map Coin.value = f.inputs.map Coin.value := by
  induction coins generalizing coins' total f f' with
  | nil =>
    obtain rfl := List.map_eq_nil_iff.1 hvalues
    cases hf
    cases hf'
    exact ⟨rfl, rfl⟩
  | cons c coins ih =>
    obtain ⟨c', coins', rfl, hc, hvalues⟩ := List.map_eq_cons_iff.1 hvalues
    rw [take?] at hf hf'
    by_cases hlt : required < total
    · rw [if_pos hlt] at hf hf'
      cases hf
      cases hf'
      exact ⟨rfl, rfl⟩
    -- a coin adds its value to the total, and nothing else of it counts
    have hadd : fees.addInput? total c' = fees.addInput? total c := by
      rw [Fees.addInput?, Fees.addInput?, hc]
    rw [if_neg hlt] at hf hf'
    simp only [hadd, Option.bind_eq_bind, Option.bind_eq_some_iff] at hf hf'
    obtain ⟨t, ht, rest, hrest, hf⟩ := hf
    obtain ⟨t', ht', rest', hrest', hf'⟩ := hf'
    obtain rfl : t = t' := Option.some.inj (ht.symm.trans ht')
    obtain ⟨htotal, hinputs⟩ := ih hvalues hrest hrest'
    cases hf
    cases hf'
    refine ⟨htotal, ?_⟩
    rw [List.map_cons, List.map_cons, hc, hinputs]

/-- A funding from permuted coins comes to the same total, with coins of the same values. -/
theorem select?_values_eq (hperm : coins'.Perm coins)
    (hf : select? fees coins already required = some f)
    (hf' : select? fees coins' already required = some f') :
    f'.total = f.total ∧ f'.inputs.map Coin.value = f.inputs.map Coin.value :=
  take?_values_eq ((isStableSort_order coins).map_key_eq (isStableSort_order coins') hperm) hf hf'

/-- A transaction that pays with permuted coins fails for the same reason, or does not fail. -/
theorem Attempt.error_iff {α : Type} {built built' : Funding → α → Prop}
    {result result' : Except Error α} (h : Attempt fees coins already required built result)
    (h' : Attempt fees coins' already required built' result') (hperm : coins'.Perm coins)
    (e : Error) : result = .error e ↔ result' = .error e := by
  cases h with
  | short hf hlt =>
    cases h' with
    | short hf' _ => rw [(select?_values_eq hperm hf hf').1]
    | paid hf' hle _ =>
      rw [(select?_values_eq hperm hf hf').1] at hle
      omega
  | paid hf hle _ =>
    cases h' with
    | short hf' hlt =>
      rw [(select?_values_eq hperm hf hf').1] at hlt
      omega
    | paid _ _ _ => exact iff_of_false nofun nofun

end Funding

/-- Whether an error is about tokens, so that the first pass reports it. -/
def SelectionError.isAboutTokens : SelectionError → Bool
  | .emptyRequest | .quantityOverflow | .insufficientTokens .. => true
  | .insufficientCurrency .. | .missingParent _ => false

namespace Selection

/-! ## The first pass -/

/-- How many coins are taken depends on the quantities alone. -/
theorem map_takeReaching_eq {β : Type} {f : TokenCoin → β} {coins coins' : List TokenCoin}
    (hquantity : coins'.map TokenCoin.quantity = coins.map TokenCoin.quantity)
    (hf : coins'.map f = coins.map f) (target : Nat) :
    (takeReaching target coins').map f = (takeReaching target coins).map f := by
  induction coins generalizing coins' target with
  | nil =>
    obtain rfl := List.map_eq_nil_iff.1 hquantity
    rfl
  | cons c coins ih =>
    obtain ⟨c', coins', rfl, hc, hquantity⟩ := List.map_eq_cons_iff.1 hquantity
    rw [List.map_cons, List.map_cons, List.cons.injEq] at hf
    rw [takeReaching, takeReaching]
    split
    · rfl
    · rw [List.map_cons, List.map_cons, hf.1, hc, ih hquantity hf.2]

variable {fees : Fees} {id : TokenId} {amounts : List UInt64}
  {tokenCoins tokenCoins' : List TokenCoin} {plainCoins plainCoins' : List Coin}
  {s s' : Selection}

theorem map_candidates_eq {β : Type} {f : TokenCoin → β} (hperm : tokenCoins'.Perm tokenCoins)
    (hf : ∀ c ∈ tokenCoins.filter (·.tokenId = id), ∀ d ∈ tokenCoins.filter (·.tokenId = id),
      c.quantity = d.quantity → f c = f d) :
    (candidates id tokenCoins').map f = (candidates id tokenCoins).map f :=
  (isStableSort_candidates id tokenCoins).map_eq (isStableSort_candidates id tokenCoins')
    (hperm.filter _) hf

/-- **What the first pass takes from permuted coins** agrees place by place in whatever the
quantity of a coin determines. -/
theorem map_picked_eq {β : Type} {f : TokenCoin → β} (hperm : tokenCoins'.Perm tokenCoins)
    (hf : ∀ c ∈ tokenCoins.filter (·.tokenId = id), ∀ d ∈ tokenCoins.filter (·.tokenId = id),
      c.quantity = d.quantity → f c = f d) :
    (picked id amounts tokenCoins').map f = (picked id amounts tokenCoins).map f :=
  map_takeReaching_eq (map_candidates_eq hperm fun _ _ _ _ h => h) (map_candidates_eq hperm hf) _

theorem map_quantity_picked_eq (hperm : tokenCoins'.Perm tokenCoins) :
    (picked id amounts tokenCoins').map TokenCoin.quantity =
      (picked id amounts tokenCoins).map TokenCoin.quantity :=
  map_picked_eq hperm fun _ _ _ _ h => h

theorem heldBy_picked_eq (hperm : tokenCoins'.Perm tokenCoins) :
    heldBy (picked id amounts tokenCoins') = heldBy (picked id amounts tokenCoins) := by
  rw [heldBy, map_quantity_picked_eq hperm, ← heldBy]

theorem length_picked_eq (hperm : tokenCoins'.Perm tokenCoins) :
    (picked id amounts tokenCoins').length = (picked id amounts tokenCoins).length := by
  rw [← List.length_map TokenCoin.quantity, map_quantity_picked_eq hperm, List.length_map]

theorem pairwise_quantity_picked (id : TokenId) (amounts : List UInt64)
    (tokenCoins : List TokenCoin) :
    (picked id amounts tokenCoins).Pairwise fun c d => c.quantity ≤ d.quantity :=
  (isStableSort_candidates id tokenCoins).sorted.sublist (isPrefix_takeReaching _ _).sublist

/-- The first pass reports the same errors. -/
theorem select_eq_error_iff_of_isAboutTokens (htokens : tokenCoins'.Perm tokenCoins)
    (h : select fees id amounts tokenCoins plainCoins ≠ .error .overflow)
    (h' : select fees id amounts tokenCoins' plainCoins' ≠ .error .overflow)
    {e : SelectionError} (he : e.isAboutTokens = true) :
    select fees id amounts tokenCoins plainCoins = .error (.selection e) ↔
      select fees id amounts tokenCoins' plainCoins' = .error (.selection e) := by
  have hheld := heldBy_eq_of_perm (htokens.filter (·.tokenId = id))
  cases e with
  | emptyRequest => rw [select_eq_emptyRequest_iff, select_eq_emptyRequest_iff]
  | quantityOverflow => rw [select_eq_quantityOverflow_iff, select_eq_quantityOverflow_iff]
  | insufficientTokens =>
    rw [select_eq_insufficientTokens_iff h, select_eq_insufficientTokens_iff h', hheld]
  | insufficientCurrency => cases he
  | missingParent => cases he

/-! ## Both passes -/

/-- **Selections from permuted coins** say the same of tokens, and set the same aside for them. -/
theorem Selects.amounts_eq (hs : Selects fees id amounts tokenCoins plainCoins s)
    (hs' : Selects fees id amounts tokenCoins' plainCoins' s')
    (htokens : tokenCoins'.Perm tokenCoins) :
    s'.quantities = s.quantities ∧ s'.tokenInputCount = s.tokenInputCount ∧
      s'.inputTokens = s.inputTokens ∧ s'.dust = s.dust ∧ s'.fee = s.fee := by
  have hheld : heldBy (picked id amounts tokenCoins') = heldBy (picked id amounts tokenCoins) :=
    heldBy_picked_eq htokens
  have hrequested : s'.requested = s.requested := by
    rw [← UInt64.toNat_inj, hs'.requested_eq, hs.requested_eq]
  have hchange : s'.tokenChange = s.tokenChange := by
    have := hs.held_eq
    have := hs'.held_eq
    rw [hrequested] at this
    rw [← UInt64.toNat_inj]
    omega
  refine ⟨?_, ?_, ?_, ?_, ?_⟩
  · rw [hs'.quantities_eq, hs.quantities_eq, hrequested, hchange]
  · rw [hs'.tokenInputCount_eq, hs.tokenInputCount_eq, length_picked_eq htokens]
  · rw [hs'.inputTokens_eq, hs.inputTokens_eq, hheld]
  · rw [← Int64.toInt_inj, hs'.dust_eq, hs.dust_eq, hchange]
  · exact Option.some.inj (hs'.fee_eq.symm.trans hs.fee_eq)

/-- What ties must not decide: coins of one quantity are worth the same in currency. -/
def TiesWorthSame (id : TokenId) (tokenCoins : List TokenCoin) : Prop :=
  ∀ c ∈ tokenCoins, ∀ d ∈ tokenCoins, c.tokenId = id → d.tokenId = id →
    c.quantity = d.quantity → c.coin.value = d.coin.value

instance (id : TokenId) (tokenCoins : List TokenCoin) : Decidable (TiesWorthSame id tokenCoins) :=
  inferInstanceAs (Decidable (∀ c ∈ tokenCoins, ∀ d ∈ tokenCoins, c.tokenId = id →
    d.tokenId = id → c.quantity = d.quantity → c.coin.value = d.coin.value))

theorem TiesWorthSame.map_value_picked_eq (hties : TiesWorthSame id tokenCoins)
    (hperm : tokenCoins'.Perm tokenCoins) :
    ((picked id amounts tokenCoins').map TokenCoin.coin).map Coin.value =
      ((picked id amounts tokenCoins).map TokenCoin.coin).map Coin.value := by
  rw [List.map_map, List.map_map]
  refine map_picked_eq hperm fun c hc d hd => ?_
  rw [List.mem_filter, decide_eq_true_eq] at hc hd
  exact hties c hc.1 d hd.1 hc.2 hd.2

/-- A selection goes on to the second pass, or the first one has failed. -/
theorem exists_attempt (h : select fees id amounts tokenCoins plainCoins ≠ .error .overflow) :
    (∃ e : SelectionError, e.isAboutTokens = true ∧
        select fees id amounts tokenCoins plainCoins = .error (.selection e)) ∨
      ∃ pass : FirstPass fees id amounts tokenCoins,
        Funding.Attempt fees plainCoins pass.worth pass.required
          (fun _ s => Selects fees id amounts tokenCoins plainCoins s)
          (select fees id amounts tokenCoins plainCoins) := by
  have houtcome := outcome_select fees id amounts tokenCoins plainCoins
  generalize select fees id amounts tokenCoins plainCoins = result at houtcome h ⊢
  cases houtcome with
  | emptyRequest => exact .inl ⟨_, rfl, rfl⟩
  | quantityOverflow => exact .inl ⟨_, rfl, rfl⟩
  | overflow => exact absurd rfl h
  | insufficientTokens => exact .inl ⟨_, rfl, rfl⟩
  | funded pass hattempt => exact .inr ⟨pass, hattempt⟩

/-- The second pass starts from the same amounts. -/
theorem FirstPass.eq_of_perm (pass : FirstPass fees id amounts tokenCoins)
    (pass' : FirstPass fees id amounts tokenCoins') (hties : TiesWorthSame id tokenCoins)
    (hperm : tokenCoins'.Perm tokenCoins) :
    pass'.worth = pass.worth ∧ pass'.required = pass.required := by
  have hfee : pass'.fee = pass.fee := Option.some.inj (pass'.fee_eq.symm.trans pass.fee_eq)
  constructor
  · rw [← Int64.toInt_inj, pass'.worth_eq, pass.worth_eq]
    exact Fees.worth_eq_of_map_value_eq (hties.map_value_picked_eq hperm)
  · rw [← Int64.toInt_inj, pass'.required_eq, pass.required_eq, hfee, outlay, outlay,
      heldBy_picked_eq hperm]

theorem select_eq_error_iff_of_perm (htokens : tokenCoins'.Perm tokenCoins)
    (hplain : plainCoins'.Perm plainCoins) (hties : TiesWorthSame id tokenCoins)
    (h : select fees id amounts tokenCoins plainCoins ≠ .error .overflow)
    (h' : select fees id amounts tokenCoins' plainCoins' ≠ .error .overflow) (e : Error) :
    select fees id amounts tokenCoins plainCoins = .error e ↔
      select fees id amounts tokenCoins' plainCoins' = .error e := by
  rcases exists_attempt h with ⟨e₁, he₁, hr⟩ | ⟨pass, hattempt⟩
  · rw [hr, (select_eq_error_iff_of_isAboutTokens htokens h h' he₁).1 hr]
  rcases exists_attempt h' with ⟨e₁, he₁, hr'⟩ | ⟨pass', hattempt'⟩
  · rw [hr', (select_eq_error_iff_of_isAboutTokens htokens h h' he₁).2 hr']
  obtain ⟨hworth, hrequired⟩ := pass.eq_of_perm pass' hties htokens
  rw [hworth, hrequired] at hattempt'
  exact hattempt.error_iff hattempt' hplain e

/-- Where ties are worth the same, the inputs are. -/
theorem Selects.map_value_inputs_eq (hs : Selects fees id amounts tokenCoins plainCoins s)
    (hs' : Selects fees id amounts tokenCoins' plainCoins' s')
    (htokens : tokenCoins'.Perm tokenCoins) (hplain : plainCoins'.Perm plainCoins)
    (hties : TiesWorthSame id tokenCoins) :
    s'.inputs.map Coin.value = s.inputs.map Coin.value := by
  obtain ⟨-, -, -, hdust, hfee⟩ := hs.amounts_eq hs' htokens
  obtain ⟨worth, required, f, hworth, hrequired, hf, hinputs, -⟩ := hs.funded
  obtain ⟨worth', required', f', hworth', hrequired', hf', hinputs', -⟩ := hs'.funded
  have hvalues : ((picked id amounts tokenCoins').map TokenCoin.coin).map Coin.value =
      ((picked id amounts tokenCoins).map TokenCoin.coin).map Coin.value :=
    hties.map_value_picked_eq htokens
  obtain rfl : worth' = worth := by
    rw [← Int64.toInt_inj, hworth', hworth, Fees.worth_eq_of_map_value_eq hvalues]
  obtain rfl : required' = required := by
    rw [← Int64.toInt_inj, hrequired', hrequired, hdust, hfee]
  rw [hinputs', hinputs, List.map_append, List.map_append, hvalues,
    (Funding.select?_values_eq hplain hf hf').2]

theorem Selects.change_eq (hs : Selects fees id amounts tokenCoins plainCoins s)
    (hs' : Selects fees id amounts tokenCoins' plainCoins' s')
    (htokens : tokenCoins'.Perm tokenCoins) (hplain : plainCoins'.Perm plainCoins)
    (hties : TiesWorthSame id tokenCoins) : s'.change = s.change := by
  obtain ⟨-, -, -, hdust, hfee⟩ := hs.amounts_eq hs' htokens
  have hworth : fees.worth s'.inputs = fees.worth s.inputs :=
    Fees.worth_eq_of_map_value_eq (hs.map_value_inputs_eq hs' htokens hplain hties)
  have hbalance := hs.balance
  have hbalance' := hs'.balance
  rw [hdust, hfee] at hbalance'
  rw [← Int64.toInt_inj]
  omega

/-- A selection sees the coins in the order in which they are taken, and in no other. -/
theorem select_eq_of_sorted_eq (htokens : candidates id tokenCoins' = candidates id tokenCoins)
    (hplain : Funding.order plainCoins' = Funding.order plainCoins) :
    select fees id amounts tokenCoins' plainCoins' =
      select fees id amounts tokenCoins plainCoins := by
  simp only [select, Funding.select?, htokens, hplain]

/-- Where there are no ties, there is but one order in which to take the coins. -/
theorem select_eq_of_nodup (htokens : tokenCoins'.Perm tokenCoins)
    (hplain : plainCoins'.Perm plainCoins)
    (hquantities : ((tokenCoins.filter (·.tokenId = id)).map TokenCoin.quantity).Nodup)
    (hvalues : (plainCoins.map Coin.value).Nodup) :
    select fees id amounts tokenCoins' plainCoins' =
      select fees id amounts tokenCoins plainCoins := by
  have hcandidates : candidates id tokenCoins' = candidates id tokenCoins :=
    (isStableSort_candidates id tokenCoins).eq_of_nodup (isStableSort_candidates id tokenCoins')
      (htokens.filter _) hquantities
  have horder : Funding.order plainCoins' = Funding.order plainCoins :=
    (Funding.isStableSort_order plainCoins).eq_of_nodup (Funding.isStableSort_order plainCoins')
      hplain hvalues
  exact select_eq_of_sorted_eq hcandidates horder

/-- **Which part of a selection does not depend on the listing.**  Two selections are made for one
request from the same coins in different orders, and no amount leaves the range.

* The first pass fails for the same reason, or it takes the same ascending quantities.
* Two selections say the same of tokens, and set the same aside for them and for the fee.
* If coins of one quantity are worth the same in currency, then both selections fail for the same
  reason, or both succeed with the same change and with inputs of the same values.
* If no two coins with the token have the same quantity, and no two plain coins the same value,
  then the results are the same. -/
theorem listing_order_immaterial {r r' : Except Error Selection}
    (htokens : tokenCoins'.Perm tokenCoins) (hplain : plainCoins'.Perm plainCoins)
    (hr : select fees id amounts tokenCoins plainCoins = r)
    (hr' : select fees id amounts tokenCoins' plainCoins' = r')
    (h : r ≠ .error .overflow) (h' : r' ≠ .error .overflow) :
    ((∀ e : SelectionError, e.isAboutTokens = true →
        (r = .error (.selection e) ↔ r' = .error (.selection e))) ∧
      (picked id amounts tokenCoins').map TokenCoin.quantity =
        (picked id amounts tokenCoins).map TokenCoin.quantity ∧
      ((picked id amounts tokenCoins).map TokenCoin.quantity).Pairwise (· ≤ ·)) ∧
    (∀ s s', r = .ok s → r' = .ok s' →
      s.tokenInputs = (picked id amounts tokenCoins).map TokenCoin.coin ∧
      s'.tokenInputs = (picked id amounts tokenCoins').map TokenCoin.coin ∧
      s'.quantities = s.quantities ∧ s'.tokenInputCount = s.tokenInputCount ∧
      s'.inputTokens = s.inputTokens ∧ s'.dust = s.dust ∧ s'.fee = s.fee) ∧
    (TiesWorthSame id tokenCoins →
      (∃ e, r = .error e ∧ r' = .error e) ∨
      ∃ s s', r = .ok s ∧ r' = .ok s' ∧ s'.change = s.change ∧
        s'.inputs.map Coin.value = s.inputs.map Coin.value) ∧
    (((tokenCoins.filter (·.tokenId = id)).map TokenCoin.quantity).Nodup →
      (plainCoins.map Coin.value).Nodup → r' = r) := by
  subst hr hr'
  refine ⟨⟨fun e he => select_eq_error_iff_of_isAboutTokens htokens h h' he,
    map_quantity_picked_eq htokens, List.pairwise_map.2 (pairwise_quantity_picked _ _ _)⟩,
    fun s s' hs hs' => ?_, fun hties => ?_, select_eq_of_nodup htokens hplain⟩
  · have hs := selects_of_select hs
    have hs' := selects_of_select hs'
    exact ⟨hs.tokenInputs_eq, hs'.tokenInputs_eq, hs.amounts_eq hs' htokens⟩
  · have herror := select_eq_error_iff_of_perm htokens hplain hties h h'
    cases hs : select fees id amounts tokenCoins plainCoins with
    | error e => exact .inl ⟨e, rfl, (herror e).1 hs⟩
    | ok s =>
      cases hs' : select fees id amounts tokenCoins' plainCoins' with
      | error e =>
        rw [(herror e).2 hs'] at hs
        cases hs
      | ok s' =>
        have hs := selects_of_select hs
        have hs' := selects_of_select hs'
        exact .inr ⟨s, s', rfl, rfl, hs.change_eq hs' htokens hplain hties,
          hs.map_value_inputs_eq hs' htokens hplain hties⟩

/-- Of coins that compare equal the one that was listed first is taken, and the change is the same.
Without them there is nothing to choose. -/
theorem listing_order_immaterial_sample :
    ∃ (id : TokenId) (a b c : TokenCoin) (p q : Coin) (s s' : Selection),
      select {} id [5] [a, b, c] [p, q] = .ok s ∧ select {} id [5] [c, b, a] [q, p] = .ok s' ∧
      s.inputs = [a.coin, p] ∧ s'.inputs = [b.coin, q] ∧ s.inputs ≠ s'.inputs ∧
      s'.quantities = s.quantities ∧ s'.change = s.change ∧
      select {} id [5] [c, a] [q] = select {} id [5] [a, c] [q] := by
  let id : TokenId := ⟨⟨List.replicate 32 7, rfl⟩⟩
  let a : TokenCoin := ⟨id, 5, ⟨"a", 0, 546, ""⟩⟩
  let b : TokenCoin := ⟨id, 5, ⟨"b", 0, 546, ""⟩⟩
  let c : TokenCoin := ⟨id, 7, ⟨"c", 0, 600, ""⟩⟩
  let p : Coin := ⟨"p", 0, 1000, ""⟩
  let q : Coin := ⟨"q", 0, 1000, ""⟩
  have hs : select {} id [5] [a, b, c] [p, q] =
      .ok ⟨id, [5], 472, 232, 546, [a.coin, p], 1, 5⟩ := by
    cbv
  have hs' : select {} id [5] [c, b, a] [q, p] =
      .ok ⟨id, [5], 472, 232, 546, [b.coin, q], 1, 5⟩ := by
    cbv
  have hone : select {} id [5] [a, c] [q] = .ok ⟨id, [5], 472, 232, 546, [a.coin, q], 1, 5⟩ := by
    cbv
  have hother : select {} id [5] [c, a] [q] =
      .ok ⟨id, [5], 472, 232, 546, [a.coin, q], 1, 5⟩ := by
    cbv
  have hok (s : Selection) : Except.ok s ≠ .error Error.overflow := by rintro ⟨⟩
  obtain ⟨-, hamounts, hties, -⟩ := listing_order_immaterial (List.reverse_perm [a, b, c])
    (List.reverse_perm [p, q]) hs hs' (hok _) (hok _)
  obtain ⟨-, -, -, hnodup⟩ := listing_order_immaterial (List.reverse_perm [a, c]) (.refl [q])
    hone hother (hok _) (hok _)
  obtain ⟨-, -, hquantities, -⟩ := hamounts _ _ rfl rfl
  have hchange := (hties (by decide)).resolve_left (by rintro ⟨_, h, -⟩; cases h)
  obtain ⟨_, _, hs₁, hs₂, hchange, -⟩ := hchange
  cases hs₁
  cases hs₂
  exact ⟨id, a, b, c, p, q, _, _, hs, hs', rfl, rfl, by decide, hquantities, hchange,
    (hother.trans (hnodup (by decide) (by decide))).trans hone.symm⟩

end Selection
end SimpleLedger
