import SimpleLedger.Proofs.Error
import SimpleLedger.Proofs.Funding.Sufficiency
import SimpleLedger.Selection.Tokens

/-!
# What a selection is

`Selection.select` adds up quantities in unbounded numbers, cuts totals down to the range of a
quantity and checks every sum of currency.  This file says what all of that comes to.

* `Selection.heldBy_takeReaching_le`: the first pass stops in time.  What it takes beyond the
  target is less than its last coin holds, so the change is a quantity and nothing is cut off.
* `Selection.Outcome` lists the ways in which a selection ends, and `Selection.outcome_select` says
  that there are no others.
* `Selection.Selects` lists everything there is to know about a selection, and
  `Selection.selects_of_select` says that a successful run gives it.
* `Selects.held_eq`: what is asked for and the change are together what the selected coins hold.
* `Selects.balance`: the currency of the inputs pays for the outputs, the fee and the change.
-/

set_option autoImplicit false

namespace SimpleLedger

/-! ## Quantities -/

@[simp]
theorem totalQuantity_nil : totalQuantity [] = 0 := rfl

@[simp]
theorem totalQuantity_cons (q : UInt64) (qs : List UInt64) :
    totalQuantity (q :: qs) = q.toNat + totalQuantity qs := rfl

@[simp]
theorem totalQuantity_append (ps qs : List UInt64) :
    totalQuantity (ps ++ qs) = totalQuantity ps + totalQuantity qs := by
  induction ps with
  | nil => rw [List.nil_append, totalQuantity_nil, Nat.zero_add]
  | cons p ps ih => rw [List.cons_append, totalQuantity_cons, ih, totalQuantity_cons, Nat.add_assoc]

theorem sumQuantities?_eq_some_iff {qs : List UInt64} {q : UInt64} :
    sumQuantities? qs = some q ↔ q.toNat = totalQuantity qs := by
  rw [sumQuantities?]
  split
  next h =>
    rw [Option.some.injEq, ← UInt64.toNat_inj, toNat_ofNat_of_le h]
    exact eq_comm
  next h =>
    refine ⟨nofun, fun hq => ?_⟩
    have := toNat_le_maxQuantity q
    omega

theorem sumQuantities?_eq_none_iff {qs : List UInt64} :
    sumQuantities? qs = none ↔ maxQuantity < totalQuantity qs := by
  rw [sumQuantities?]
  split
  next h => exact iff_of_false nofun (Nat.not_lt.2 h)
  next h => exact iff_of_true rfl (Nat.not_le.1 h)

theorem toNat_clampQuantity (n : Nat) : (clampQuantity n).toNat = min n maxQuantity :=
  toNat_ofNat_of_le (Nat.min_le_right _ _)

namespace Selection

@[simp]
theorem heldBy_nil : heldBy [] = 0 := rfl

@[simp]
theorem heldBy_cons (c : TokenCoin) (coins : List TokenCoin) :
    heldBy (c :: coins) = c.quantity.toNat + heldBy coins := by
  rw [heldBy, List.map_cons, totalQuantity_cons, heldBy]

@[simp]
theorem heldBy_append (as bs : List TokenCoin) : heldBy (as ++ bs) = heldBy as + heldBy bs := by
  rw [heldBy, List.map_append, totalQuantity_append, heldBy, heldBy]

theorem heldBy_eq_of_perm {as bs : List TokenCoin} (h : as.Perm bs) : heldBy as = heldBy bs := by
  induction h with
  | nil => rfl
  | cons c _ ih => rw [heldBy_cons, heldBy_cons, ih]
  | swap c d coins =>
    rw [heldBy_cons, heldBy_cons, heldBy_cons, heldBy_cons]
    omega
  | trans _ _ ih₁ ih₂ => rw [ih₁, ih₂]

/-! ## The first pass -/

theorem isPrefix_takeReaching (target : Nat) (coins : List TokenCoin) :
    takeReaching target coins <+: coins := by
  induction coins generalizing target with
  | nil => exact List.prefix_rfl
  | cons c coins ih =>
    rw [takeReaching]
    split
    · exact List.nil_prefix
    · exact List.cons_prefix_cons.2 ⟨rfl, ih _⟩

/-- Before its last coin the first pass has not reached the target. -/
theorem heldBy_lt_of_takeReaching_eq_append {target : Nat} {coins as : List TokenCoin}
    {c : TokenCoin} (h : takeReaching target coins = as ++ [c]) : heldBy as < target := by
  induction coins generalizing target as with
  | nil => exact absurd h.symm (List.append_ne_nil_of_right_ne_nil _ (List.cons_ne_nil _ _))
  | cons d coins ih =>
    rw [takeReaching] at h
    split at h
    · exact absurd h.symm (List.append_ne_nil_of_right_ne_nil _ (List.cons_ne_nil _ _))
    · next ht =>
      cases as with
      | nil => rw [heldBy_nil]; omega
      | cons a as =>
        rw [List.cons_append, List.cons.injEq] at h
        obtain ⟨rfl, h⟩ := h
        have := ih h
        rw [heldBy_cons]
        omega

theorem heldBy_takeReaching_le (target : Nat) (coins : List TokenCoin) :
    heldBy (takeReaching target coins) ≤ target + maxQuantity := by
  rcases List.eq_nil_or_concat' (takeReaching target coins) with h | ⟨as, c, h⟩
  · rw [h, heldBy_nil]
    omega
  · have := heldBy_lt_of_takeReaching_eq_append h
    have := toNat_le_maxQuantity c.quantity
    rw [h, heldBy_append, heldBy_cons, heldBy_nil]
    omega

/-- The first pass takes everything if that is not enough. -/
theorem takeReaching_eq_self {target : Nat} {coins : List TokenCoin}
    (h : heldBy (takeReaching target coins) < target) : takeReaching target coins = coins := by
  induction coins generalizing target with
  | nil => rfl
  | cons c coins ih =>
    rw [takeReaching] at h ⊢
    split at h
    next htarget => omega
    next htarget =>
      rw [heldBy_cons] at h
      rw [if_neg htarget, ih (by omega)]

theorem isStableSort_candidates (id : TokenId) (coins : List TokenCoin) :
    IsStableSort TokenCoin.quantity (coins.filter (·.tokenId = id)) (candidates id coins) :=
  isStableSort_mergeSort TokenCoin.quantity _

theorem heldBy_candidates (id : TokenId) (coins : List TokenCoin) :
    heldBy (candidates id coins) = heldBy (coins.filter (·.tokenId = id)) :=
  heldBy_eq_of_perm (isStableSort_candidates id coins).perm

theorem candidates_subperm (id : TokenId) (coins : List TokenCoin) :
    (candidates id coins).Subperm (coins.filter (·.tokenId = id)) :=
  (isStableSort_candidates id coins).perm.subperm

/-- The coins with tokens that a request takes. -/
def picked (id : TokenId) (requested : List UInt64) (coins : List TokenCoin) : List TokenCoin :=
  takeReaching (totalQuantity requested) (candidates id coins)

theorem picked_subperm_filter (id : TokenId) (requested : List UInt64) (coins : List TokenCoin) :
    (picked id requested coins).Subperm (coins.filter (·.tokenId = id)) :=
  (isPrefix_takeReaching _ _).sublist.subperm.trans (candidates_subperm id coins)

theorem picked_subperm (id : TokenId) (requested : List UInt64) (coins : List TokenCoin) :
    (picked id requested coins).Subperm coins :=
  (picked_subperm_filter id requested coins).trans List.filter_sublist.subperm

theorem tokenId_of_mem_picked {id : TokenId} {requested : List UInt64} {coins : List TokenCoin}
    {c : TokenCoin} (h : c ∈ picked id requested coins) : c.tokenId = id := by
  have hc := (picked_subperm_filter id requested coins).subset h
  simpa using (List.mem_filter.1 hc).2

/-- If what is picked is not enough, then all coins with the token are picked. -/
theorem heldBy_picked_of_lt {id : TokenId} {requested : List UInt64} {coins : List TokenCoin}
    (h : heldBy (picked id requested coins) < totalQuantity requested) :
    heldBy (picked id requested coins) = heldBy (coins.filter (·.tokenId = id)) := by
  rw [picked] at h ⊢
  rw [takeReaching_eq_self h, heldBy_candidates]

/-- There is no more to pick than the coins with the token. -/
theorem heldBy_picked_le (id : TokenId) (requested : List UInt64) (coins : List TokenCoin) :
    heldBy (picked id requested coins) ≤ heldBy (coins.filter (·.tokenId = id)) := by
  obtain ⟨rest, hrest⟩ := isPrefix_takeReaching (totalQuantity requested) (candidates id coins)
  rw [← heldBy_candidates, ← hrest, heldBy_append, picked]
  omega

/-! ## Both passes -/

/-- What there is to know about a selection made for a request. -/
structure Selects (fees : Fees) (id : TokenId) (amounts : List UInt64)
    (tokenCoins : List TokenCoin) (plainCoins : List Coin) (s : Selection) : Prop where
  nonempty : amounts ≠ []
  requested_eq : s.requested.toNat = totalQuantity amounts
  held_eq : s.requested.toNat + s.tokenChange.toNat = heldBy (picked id amounts tokenCoins)
  tokenId_eq : s.tokenId = id
  quantities_eq : s.quantities = s.requested :: if 0 < s.tokenChange then [s.tokenChange] else []
  fee_eq : fees.sendFee? amounts.length = some s.fee
  dust_eq : s.dust.toInt = fees.dustLimit.toInt * (Satoshi.ofCount amounts.length).toInt +
    if 0 < s.tokenChange then fees.dustLimit.toInt else 0
  /-- The second pass starts from what the coins with tokens are worth. -/
  funded : ∃ (worth required : Satoshi) (f : Funding),
    worth.toInt = fees.worth ((picked id amounts tokenCoins).map TokenCoin.coin) ∧
      required.toInt = s.dust.toInt + s.fee.toInt ∧
      Funding.select? fees plainCoins worth required = some f ∧
      s.inputs = (picked id amounts tokenCoins).map TokenCoin.coin ++ f.inputs ∧
      s.change.toInt = f.total.toInt - s.dust.toInt - s.fee.toInt
  tokenInputCount_eq : s.tokenInputCount = (picked id amounts tokenCoins).length
  inputTokens_eq : s.inputTokens = clampQuantity (heldBy (picked id amounts tokenCoins))
  change_nonneg : 0 ≤ s.change.toInt

/-- Two quantities, or one where the second would be zero. -/
theorem getD_one_ite {target extra : UInt64} :
    (if 0 < extra then [target, extra] else [target])[1]?.getD 0 = extra := by
  split
  next => rfl
  next h =>
    rw [UInt64.lt_iff_toNat_lt, UInt64.toNat_zero, Nat.not_lt, Nat.le_zero] at h
    exact (UInt64.toNat_inj.1 h).symm

section

variable {fees : Fees} {id : TokenId} {amounts : List UInt64} {tokenCoins : List TokenCoin}
  {plainCoins : List Coin} {s : Selection}

/-- What two successful passes come to. -/
theorem selects_of_passes {target extra : UInt64} {dust worth fee required change : Satoshi}
    {f : Funding} (hne : amounts ≠ []) (htarget : target.toNat = totalQuantity amounts)
    (hextra : target.toNat + extra.toNat = heldBy (picked id amounts tokenCoins))
    (hdust : dust.toInt = fees.dustLimit.toInt * (Satoshi.ofCount amounts.length).toInt +
      if 0 < extra then fees.dustLimit.toInt else 0)
    (hworth : worth.toInt = fees.worth ((picked id amounts tokenCoins).map TokenCoin.coin))
    (hfee : fees.sendFee? amounts.length = some fee)
    (hrequired : required.toInt = dust.toInt + fee.toInt)
    (hf : Funding.select? fees plainCoins worth required = some f)
    (hchange : change.toInt = f.total.toInt - dust.toInt - fee.toInt) (hnonneg : 0 ≤ change.toInt) :
    Selects fees id amounts tokenCoins plainCoins {
      tokenId := id
      quantities := if 0 < extra then [target, extra] else [target]
      change
      fee
      dust
      inputs := (picked id amounts tokenCoins).map TokenCoin.coin ++ f.inputs
      tokenInputCount := ((picked id amounts tokenCoins).map TokenCoin.coin).length
      inputTokens := clampQuantity (heldBy (picked id amounts tokenCoins)) } := by
  have hquantities : (if 0 < extra then [target, extra] else [target]) =
      target :: if 0 < extra then [extra] else [] := by
    split <;> rfl
  constructor
  case nonempty => exact hne
  case requested_eq => rw [requested, hquantities]; exact htarget
  case held_eq => rw [requested, tokenChange, getD_one_ite, hquantities]; exact hextra
  case tokenId_eq => rfl
  case quantities_eq => rw [requested, tokenChange, getD_one_ite, hquantities]; rfl
  case fee_eq => exact hfee
  case dust_eq => rw [tokenChange, getD_one_ite]; exact hdust
  case funded => exact ⟨worth, required, f, hworth, hrequired, hf, rfl, hchange⟩
  case tokenInputCount_eq => exact List.length_map _
  case inputTokens_eq => rfl
  case change_nonneg => exact hnonneg

/-! ## How a selection ends -/

/-- What has to be paid apart from the inputs: dust for each quantity that was asked for, and for
the change if there is any, and the fee. -/
def outlay (fees : Fees) (id : TokenId) (amounts : List UInt64) (tokenCoins : List TokenCoin)
    (fee : Satoshi) : Int :=
  fees.dustLimit.toInt * (Satoshi.ofCount amounts.length).toInt +
    (if totalQuantity amounts < heldBy (picked id amounts tokenCoins) then fees.dustLimit.toInt
      else 0) + fee.toInt

/-- What the first pass leaves to the second, if the coins hold what is asked for. -/
structure FirstPass (fees : Fees) (id : TokenId) (amounts : List UInt64)
    (tokenCoins : List TokenCoin) where
  worth : Satoshi
  fee : Satoshi
  required : Satoshi
  nonempty : amounts ≠ []
  total_le : totalQuantity amounts ≤ maxQuantity
  total_le_held : totalQuantity amounts ≤ heldBy (tokenCoins.filter (·.tokenId = id))
  worth_eq : worth.toInt = fees.worth ((picked id amounts tokenCoins).map TokenCoin.coin)
  fee_eq : fees.sendFee? amounts.length = some fee
  required_eq : required.toInt = outlay fees id amounts tokenCoins fee

/-- The ways in which a selection ends. -/
inductive Outcome (fees : Fees) (id : TokenId) (amounts : List UInt64)
    (tokenCoins : List TokenCoin) (plainCoins : List Coin) : Except Error Selection → Prop
  | emptyRequest (hnil : amounts = []) :
      Outcome fees id amounts tokenCoins plainCoins (.error (.selection .emptyRequest))
  | quantityOverflow (hne : amounts ≠ []) (hlt : maxQuantity < totalQuantity amounts) :
      Outcome fees id amounts tokenCoins plainCoins (.error (.selection .quantityOverflow))
  | overflow (hne : amounts ≠ []) (hle : totalQuantity amounts ≤ maxQuantity) :
      Outcome fees id amounts tokenCoins plainCoins (.error .overflow)
  | insufficientTokens {required available : UInt64} (hne : amounts ≠ [])
      (hrequired : required.toNat = totalQuantity amounts)
      (havailable : available.toNat = heldBy (tokenCoins.filter (·.tokenId = id)))
      (hlt : available.toNat < required.toNat) :
      Outcome fees id amounts tokenCoins plainCoins
        (.error (.selection (.insufficientTokens id required available)))
  | funded (pass : FirstPass fees id amounts tokenCoins) {result : Except Error Selection}
      (h : Funding.Attempt fees plainCoins pass.worth pass.required
        (fun _ s => Selects fees id amounts tokenCoins plainCoins s) result) :
      Outcome fees id amounts tokenCoins plainCoins result

/-- A selection ends in one of these ways. -/
theorem outcome_select (fees : Fees) (id : TokenId) (amounts : List UInt64)
    (tokenCoins : List TokenCoin) (plainCoins : List Coin) :
    Outcome fees id amounts tokenCoins plainCoins
      (select fees id amounts tokenCoins plainCoins) := by
  rw [select]
  split
  next hnil => exact .emptyRequest (List.isEmpty_iff.1 hnil)
  next hne =>
  rw [List.isEmpty_iff] at hne
  split
  next hnone => exact .quantityOverflow hne (sumQuantities?_eq_none_iff.1 hnone)
  next target htarget =>
  rw [sumQuantities?_eq_some_iff] at htarget
  have htotal : totalQuantity amounts ≤ maxQuantity := htarget ▸ toNat_le_maxQuantity target
  have hoverflow : Outcome fees id amounts tokenCoins plainCoins (.error .overflow) :=
    .overflow hne htotal
  refine checked_bind hoverflow fun dust₁ hdust₁ => ?_
  rw [Satoshi.mul?_eq_some_iff] at hdust₁
  rw [htarget, ← picked]
  refine checked_bind hoverflow fun worth hworth => ?_
  have hworth := Fees.toInt_of_addInputs? hworth
  rw [Int64.toInt_zero, Int.zero_add] at hworth
  change Outcome _ _ _ _ _ (if heldBy (picked id amounts tokenCoins) < _ then _ else _)
  split
  next hlt =>
    have havailable : (clampQuantity (heldBy (picked id amounts tokenCoins))).toNat =
        heldBy (picked id amounts tokenCoins) := by
      rw [toNat_clampQuantity]
      omega
    exact .insufficientTokens hne htarget (by rw [havailable, heldBy_picked_of_lt hlt])
      (by rwa [havailable, htarget])
  next hheld =>
  rw [Nat.not_lt] at hheld
  extract_lets extra rest
  -- nothing of the change is cut off
  have hextra : target.toNat + extra.toNat = heldBy (picked id amounts tokenCoins) := by
    have hle := heldBy_takeReaching_le (totalQuantity amounts) (candidates id tokenCoins)
    show _ + (clampQuantity (heldBy (picked id amounts tokenCoins) - _)).toNat = _
    rw [toNat_clampQuantity, htarget]
    rw [← picked] at hle
    omega
  have hextra_pos : 0 < extra ↔ totalQuantity amounts < heldBy (picked id amounts tokenCoins) := by
    rw [UInt64.lt_iff_toNat_lt, UInt64.toNat_zero]
    omega
  have hrest (dust : Satoshi) (hdust : dust.toInt =
      fees.dustLimit.toInt * (Satoshi.ofCount amounts.length).toInt +
        if 0 < extra then fees.dustLimit.toInt else 0) :
      Outcome fees id amounts tokenCoins plainCoins (rest dust) := by
    dsimp only [rest]
    refine checked_bind hoverflow fun fee hfee => ?_
    refine checked_bind hoverflow fun required hrequired => ?_
    refine checked_bind hoverflow fun f hf => ?_
    refine checked_bind hoverflow fun change hchange => ?_
    rw [Satoshi.add?_eq_some_iff] at hrequired
    rw [Option.bind_eq_bind, Option.bind_eq_some_iff] at hchange
    obtain ⟨left, hleft, hchange⟩ := hchange
    rw [Satoshi.sub?_eq_some_iff] at hleft hchange
    rw [hleft] at hchange
    have hrequired_outlay : required.toInt = outlay fees id amounts tokenCoins fee := by
      simp only [hrequired, hdust, hextra_pos, outlay]
    refine .funded ⟨worth, fee, required, hne, htotal,
      hheld.trans (heldBy_picked_le id amounts tokenCoins), hworth, hfee, hrequired_outlay⟩ ?_
    refine .of_leftover hf ?_ fun hnonneg => selects_of_passes hne htarget hextra hdust hworth hfee
      hrequired hf hchange hnonneg
    rw [hchange, hrequired]
    omega
  split
  next hpos =>
    refine checked_bind hoverflow fun dust hdust => hrest dust ?_
    rw [Satoshi.add?_eq_some_iff] at hdust
    rw [hdust, hdust₁, if_pos hpos]
  next hpos => exact hrest dust₁ (by rw [hdust₁, if_neg hpos, Int.add_zero])

/-- **A successful selection** is one in every respect. -/
theorem selects_of_select (h : select fees id amounts tokenCoins plainCoins = .ok s) :
    Selects fees id amounts tokenCoins plainCoins s := by
  have houtcome := outcome_select fees id amounts tokenCoins plainCoins
  rw [h] at houtcome
  cases houtcome with
  | funded pass hattempt =>
    cases hattempt with
    | paid hf hle hs => exact hs

end

/-! ## What follows -/

section

variable {fees : Fees} {id : TokenId} {amounts : List UInt64} {tokenCoins : List TokenCoin}
  {plainCoins : List Coin} {s : Selection}

/-- The inputs are the coins with tokens and after them plain coins. -/
theorem Selects.inputs_eq (h : Selects fees id amounts tokenCoins plainCoins s) :
    ∃ plain : List Coin, plain.Subperm plainCoins ∧
      s.inputs = (picked id amounts tokenCoins).map TokenCoin.coin ++ plain := by
  obtain ⟨worth, required, f, -, -, hf, hinputs, -⟩ := h.funded
  exact ⟨f.inputs, Funding.subperm_of_select? hf, hinputs⟩

theorem Selects.tokenInputs_eq (h : Selects fees id amounts tokenCoins plainCoins s) :
    s.tokenInputs = (picked id amounts tokenCoins).map TokenCoin.coin := by
  obtain ⟨plain, -, hinputs⟩ := h.inputs_eq
  rw [tokenInputs, hinputs, h.tokenInputCount_eq]
  exact List.take_left' (List.length_map _)

/-- The plain coins are what the second pass adds to the coins with tokens. -/
theorem Selects.exists_funding (h : Selects fees id amounts tokenCoins plainCoins s) :
    ∃ (worth required : Satoshi) (f : Funding), worth.toInt = fees.worth s.tokenInputs ∧
      required.toInt = s.dust.toInt + s.fee.toInt ∧
      Funding.select? fees plainCoins worth required = some f ∧ s.plainInputs = f.inputs := by
  obtain ⟨worth, required, f, hworth, hrequired, hf, hinputs, -⟩ := h.funded
  refine ⟨worth, required, f, by rw [hworth, h.tokenInputs_eq], hrequired, hf, ?_⟩
  rw [plainInputs, hinputs, h.tokenInputCount_eq]
  exact List.drop_left' (List.length_map _)

/-- The currency that goes in pays for the outputs with tokens, the fee and the change. -/
theorem Selects.balance (h : Selects fees id amounts tokenCoins plainCoins s) :
    fees.worth s.inputs = s.dust.toInt + s.fee.toInt + s.change.toInt := by
  obtain ⟨worth, required, f, hworth, -, hf, hinputs, hchange⟩ := h.funded
  have htotal := (Funding.select?_eq_some hf).2
  rw [hinputs, Fees.worth_append]
  omega

theorem Selects.hasTokenChange_iff (h : Selects fees id amounts tokenCoins plainCoins s) :
    s.hasTokenChange = true ↔ 0 < s.tokenChange := by
  rw [hasTokenChange, h.quantities_eq, beq_iff_eq]
  split
  next hpos => exact iff_of_true rfl hpos
  next hpos => exact iff_of_false (by rw [List.length_singleton]; decide) hpos

end

end Selection
end SimpleLedger
