import SimpleLedger.Proofs.Selection

/-!
# The smallest coins first

Coins with the token are taken by ascending quantity and plain coins by ascending value, and what
stands in a selection depends on where the taking ends.

* `Selection.IsShortestReaching` is what the first pass takes, said without saying how, and
  `isShortestReaching_takeReaching` says that it does.
* `Selection.select_eq_emptyRequest_iff`, `select_eq_quantityOverflow_iff` and
  `select_eq_insufficientTokens_iff` say when the first pass fails.
* `Selection.select_congr`: coins with other tokens play no part.
* `Selection.smallest_first_exact` puts all of it together.
-/

set_option autoImplicit false

namespace SimpleLedger
namespace Selection

/-! ## Where the first pass ends -/

/-- The shortest prefix that holds at least `target`. -/
structure IsShortestReaching (target : Nat) (coins taken : List TokenCoin) : Prop where
  isPrefix : taken <+: coins
  reaches : target ≤ heldBy taken
  shortest : ∀ p, p <+: coins → target ≤ heldBy p → taken <+: p

theorem takeReaching_isPrefix_of_le {target : Nat} {coins p : List TokenCoin} (hp : p <+: coins)
    (hle : target ≤ heldBy p) : takeReaching target coins <+: p := by
  induction coins generalizing target p with
  | nil => exact List.nil_prefix
  | cons c coins ih =>
    rw [takeReaching]
    split
    · exact List.nil_prefix
    next htarget =>
    rcases p with _ | ⟨d, p⟩
    · rw [heldBy_nil] at hle
      omega
    · obtain ⟨rfl, hrest⟩ := List.cons_prefix_cons.1 hp
      rw [heldBy_cons] at hle
      exact List.cons_prefix_cons.2 ⟨rfl, ih hrest (by omega)⟩

theorem isShortestReaching_takeReaching {target : Nat} {coins : List TokenCoin}
    (h : target ≤ heldBy coins) :
    IsShortestReaching target coins (takeReaching target coins) := by
  refine ⟨isPrefix_takeReaching target coins, ?_, fun p => takeReaching_isPrefix_of_le⟩
  by_contra hlt
  rw [Nat.not_le] at hlt
  rw [takeReaching_eq_self hlt] at hlt
  omega

variable {fees : Fees} {id : TokenId} {amounts : List UInt64} {tokenCoins : List TokenCoin}
  {plainCoins : List Coin} {s : Selection}

theorem Selects.isShortestReaching (h : Selects fees id amounts tokenCoins plainCoins s) :
    IsShortestReaching (totalQuantity amounts) (candidates id tokenCoins)
      (picked id amounts tokenCoins) := by
  refine isShortestReaching_takeReaching ?_
  have hheld := h.held_eq
  have hle := heldBy_picked_le id amounts tokenCoins
  rw [h.requested_eq] at hheld
  rw [heldBy_candidates]
  omega

/-! ## When the first pass fails -/

theorem select_eq_emptyRequest_iff :
    select fees id amounts tokenCoins plainCoins = .error (.selection .emptyRequest) ↔
      amounts = [] := by
  have houtcome := outcome_select fees id amounts tokenCoins plainCoins
  generalize select fees id amounts tokenCoins plainCoins = result at houtcome ⊢
  cases houtcome with
  | emptyRequest hnil => exact iff_of_true rfl hnil
  | quantityOverflow hne hlt => exact iff_of_false nofun hne
  | overflow hne hle => exact iff_of_false nofun hne
  | insufficientTokens hne hrequired havailable hlt => exact iff_of_false nofun hne
  | funded pass hattempt => cases hattempt <;> exact iff_of_false nofun pass.nonempty

theorem select_eq_quantityOverflow_iff :
    select fees id amounts tokenCoins plainCoins = .error (.selection .quantityOverflow) ↔
      amounts ≠ [] ∧ maxQuantity < totalQuantity amounts := by
  have houtcome := outcome_select fees id amounts tokenCoins plainCoins
  generalize select fees id amounts tokenCoins plainCoins = result at houtcome ⊢
  have hfits (hle : totalQuantity amounts ≤ maxQuantity) :
      ¬(amounts ≠ [] ∧ maxQuantity < totalQuantity amounts) := fun h => Nat.not_lt.2 hle h.2
  cases houtcome with
  | emptyRequest hnil => exact iff_of_false nofun fun h => h.1 hnil
  | quantityOverflow hne hlt => exact iff_of_true rfl ⟨hne, hlt⟩
  | overflow hne hle => exact iff_of_false nofun (hfits hle)
  | @insufficientTokens required _ hne hrequired havailable hlt =>
    exact iff_of_false nofun (hfits (hrequired ▸ toNat_le_maxQuantity required))
  | funded pass hattempt => cases hattempt <;> exact iff_of_false nofun (hfits pass.total_le)

theorem select_eq_insufficientTokens_iff {token : TokenId} {required available : UInt64}
    (h : select fees id amounts tokenCoins plainCoins ≠ .error .overflow) :
    select fees id amounts tokenCoins plainCoins =
        .error (.selection (.insufficientTokens token required available)) ↔
      amounts ≠ [] ∧ totalQuantity amounts ≤ maxQuantity ∧
        heldBy (tokenCoins.filter (·.tokenId = id)) < totalQuantity amounts ∧
        token = id ∧ required.toNat = totalQuantity amounts ∧
        available.toNat = heldBy (tokenCoins.filter (·.tokenId = id)) := by
  have houtcome := outcome_select fees id amounts tokenCoins plainCoins
  generalize select fees id amounts tokenCoins plainCoins = result at houtcome h ⊢
  cases houtcome with
  | emptyRequest hnil => exact iff_of_false nofun fun h => h.1 hnil
  | quantityOverflow hne hlt => exact iff_of_false nofun fun h => by omega
  | overflow hne hle => exact absurd rfl h
  | @insufficientTokens required' available' hne hrequired havailable hlt =>
    have hle := toNat_le_maxQuantity required'
    rw [hrequired] at hle
    rw [hrequired, havailable] at hlt
    simp only [Except.error.injEq, Error.selection.injEq, SelectionError.insufficientTokens.injEq,
      ← UInt64.toNat_inj, hrequired, havailable]
    constructor
    · rintro ⟨htoken, hreq, havail⟩
      exact ⟨hne, hle, hlt, htoken.symm, hreq.symm, havail.symm⟩
    · rintro ⟨-, -, -, htoken, hreq, havail⟩
      exact ⟨htoken.symm, hreq.symm, havail.symm⟩
  | funded pass hattempt =>
    have henough := pass.total_le_held
    cases hattempt <;> exact iff_of_false nofun fun h => by omega

/-! ## Both passes -/

/-- Coins with other tokens play no part. -/
theorem select_congr {others : List TokenCoin}
    (h : others.filter (·.tokenId = id) = tokenCoins.filter (·.tokenId = id)) :
    select fees id amounts others plainCoins = select fees id amounts tokenCoins plainCoins := by
  rw [select, select, candidates, candidates, h]

/-- **A selection takes the smallest coins first.**  It fails for the first of three reasons that
applies: nothing is asked for, the sum of what is asked for is no quantity, or the coins with the
token hold less than the sum, and then it reports both numbers.  If it succeeds, then its inputs
begin with the shortest prefix of these coins by ascending quantity that holds the sum, and go on
with a prefix of the plain coins by ascending value.  Coins with other tokens play no part. -/
theorem smallest_first_exact (fees : Fees) (id : TokenId) (amounts : List UInt64)
    (tokenCoins : List TokenCoin) (plainCoins : List Coin) :
    (select fees id amounts tokenCoins plainCoins = .error (.selection .emptyRequest) ↔
      amounts = []) ∧
    (select fees id amounts tokenCoins plainCoins = .error (.selection .quantityOverflow) ↔
      amounts ≠ [] ∧ maxQuantity < totalQuantity amounts) ∧
    (select fees id amounts tokenCoins plainCoins ≠ .error .overflow →
      ∀ (token : TokenId) (required available : UInt64),
        select fees id amounts tokenCoins plainCoins =
            .error (.selection (.insufficientTokens token required available)) ↔
          amounts ≠ [] ∧ totalQuantity amounts ≤ maxQuantity ∧
            heldBy (tokenCoins.filter (·.tokenId = id)) < totalQuantity amounts ∧
            token = id ∧ required.toNat = totalQuantity amounts ∧
            available.toNat = heldBy (tokenCoins.filter (·.tokenId = id))) ∧
    (∀ s, select fees id amounts tokenCoins plainCoins = .ok s →
      ∃ (sortedTokens taken : List TokenCoin) (sortedPlain plain : List Coin),
        s.inputs = taken.map TokenCoin.coin ++ plain ∧
        s.tokenInputs = taken.map TokenCoin.coin ∧ s.plainInputs = plain ∧
        IsStableSort TokenCoin.quantity (tokenCoins.filter (·.tokenId = id)) sortedTokens ∧
        IsShortestReaching (totalQuantity amounts) sortedTokens taken ∧
        IsStableSort Coin.value plainCoins sortedPlain ∧ plain <+: sortedPlain) ∧
    (∀ others : List TokenCoin,
      others.filter (·.tokenId = id) = tokenCoins.filter (·.tokenId = id) →
        select fees id amounts others plainCoins =
          select fees id amounts tokenCoins plainCoins) := by
  refine ⟨select_eq_emptyRequest_iff, select_eq_quantityOverflow_iff,
    fun h _ _ _ => select_eq_insufficientTokens_iff h, fun s h => ?_, fun _ => select_congr⟩
  have hs := selects_of_select h
  obtain ⟨_, _, f, -, -, hf, hplain⟩ := hs.exists_funding
  refine ⟨candidates id tokenCoins, picked id amounts tokenCoins, Funding.order plainCoins,
    s.plainInputs, ?_, hs.tokenInputs_eq, rfl, isStableSort_candidates id tokenCoins,
    hs.isShortestReaching, Funding.isStableSort_order plainCoins, ?_⟩
  · rw [← hs.tokenInputs_eq, tokenInputs, plainInputs, List.take_append_drop]
  · rw [hplain]
    exact (Funding.select?_eq_some hf).1

/-- Of two coins that hold the same, the one that was given first goes first, and together they hold
just what is asked for; without the coin with another token nothing changes.  More than the coins
with the token hold cannot be had. -/
theorem smallest_first_exact_sample :
    ∃ (id other : TokenId) (coins : List TokenCoin) (s : Selection),
      coins = [⟨other, 1, ⟨"a", 0, 546, ""⟩⟩, ⟨id, 7, ⟨"b", 0, 546, ""⟩⟩,
        ⟨id, 5, ⟨"c", 0, 546, ""⟩⟩, ⟨id, 5, ⟨"d", 0, 546, ""⟩⟩] ∧
      select {} id [10] coins [⟨"p", 0, 10000, ""⟩] = .ok s ∧
      (∃ sorted taken, IsStableSort TokenCoin.quantity (coins.filter (·.tokenId = id)) sorted ∧
        IsShortestReaching 10 sorted taken ∧ s.tokenInputs = taken.map TokenCoin.coin) ∧
      s.tokenInputs = [⟨"c", 0, 546, ""⟩, ⟨"d", 0, 546, ""⟩] ∧
      select {} id [10] coins.tail [⟨"p", 0, 10000, ""⟩] = .ok s ∧
      select {} id [30] coins [] = .error (.selection (.insufficientTokens id 30 17)) ∧
      heldBy (coins.filter (·.tokenId = id)) < totalQuantity [30] := by
  let id : TokenId := ⟨⟨List.replicate 32 7, rfl⟩⟩
  let other : TokenId := ⟨⟨List.replicate 32 8, rfl⟩⟩
  let coins : List TokenCoin := [⟨other, 1, ⟨"a", 0, 546, ""⟩⟩, ⟨id, 7, ⟨"b", 0, 546, ""⟩⟩,
    ⟨id, 5, ⟨"c", 0, 546, ""⟩⟩, ⟨id, 5, ⟨"d", 0, 546, ""⟩⟩]
  have hok : select {} id [10] coins [⟨"p", 0, 10000, ""⟩] = .ok {
      tokenId := id
      quantities := [10]
      change := 18
      fee := 232
      dust := 546
      inputs := [⟨"c", 0, 546, ""⟩, ⟨"d", 0, 546, ""⟩]
      tokenInputCount := 2
      inputTokens := 10 } := by
    cbv
  have herror : select {} id [30] coins [] =
      .error (.selection (.insufficientTokens id 30 17)) := by
    cbv
  obtain ⟨-, -, -, hsuccess, hothers⟩ := smallest_first_exact {} id [10] coins [⟨"p", 0, 10000, ""⟩]
  obtain ⟨-, -, htokens, -⟩ := smallest_first_exact {} id [30] coins []
  obtain ⟨sorted, taken, -, -, -, htaken, -, hsorted, hshortest, -⟩ := hsuccess _ hok
  have hlt := ((htokens (by simp [herror]) _ _ _).1 herror).2.2.1
  exact ⟨id, other, coins, _, rfl, hok, ⟨sorted, taken, hsorted, hshortest, htaken⟩, rfl,
    (hothers coins.tail (by cbv)).trans hok, herror, hlt⟩

end Selection
end SimpleLedger
