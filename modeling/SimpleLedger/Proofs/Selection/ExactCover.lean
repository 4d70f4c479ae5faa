import SimpleLedger.Proofs.Selection

/-!
# Selected tokens are covered exactly

Tokens reach a transaction through its inputs, and leave it as the quantities of its message.  Were
the quantities less than what the inputs hold, the difference would be lost.

* `Selection.le_of_picked_eq_append`: the last coin that the first pass takes is the largest.
* `Selection.Selects.tokenChange_lt`: the change is less than that coin holds, so it always is a
  quantity, whatever the inputs hold together.
* `Selection.quantities_cover_inputs`: the quantities of a selection add up to what its inputs hold.
-/

set_option autoImplicit false

namespace SimpleLedger
namespace Selection

/-! ## The last coin of the first pass -/

variable {fees : Fees} {id : TokenId} {amounts : List UInt64} {tokenCoins as : List TokenCoin}
  {plainCoins : List Coin} {s : Selection} {c : TokenCoin}

/-- Coins are taken by ascending quantity, so the last one is the largest. -/
theorem le_of_picked_eq_append (h : picked id amounts tokenCoins = as ++ [c]) :
    ∀ d ∈ picked id amounts tokenCoins, d.quantity ≤ c.quantity := by
  have hsorted : (picked id amounts tokenCoins).Pairwise fun c d => c.quantity ≤ d.quantity :=
    (isStableSort_candidates id tokenCoins).sorted.sublist (isPrefix_takeReaching _ _).sublist
  rw [h, List.pairwise_append] at hsorted
  intro d hd
  rw [h, List.mem_append, List.mem_singleton] at hd
  rcases hd with hd | rfl
  · exact hsorted.2.2 d hd c (List.mem_singleton_self c)
  · exact UInt64.le_refl d.quantity

/-- Without its last coin the first pass falls short of the request, so what is left over is a part
of that coin. -/
theorem Selects.tokenChange_lt (hs : Selects fees id amounts tokenCoins plainCoins s)
    (h : picked id amounts tokenCoins = as ++ [c]) : s.tokenChange < c.quantity := by
  have hshort : heldBy as < totalQuantity amounts := heldBy_lt_of_takeReaching_eq_append h
  have hheld := hs.held_eq
  rw [hs.requested_eq, h, heldBy_append, heldBy_cons, heldBy_nil] at hheld
  rw [UInt64.lt_iff_toNat_lt]
  omega

/-! ## Quantities and inputs -/

theorem Selects.tokenChange_pos_iff (hs : Selects fees id amounts tokenCoins plainCoins s) :
    0 < s.tokenChange ↔ totalQuantity amounts < heldBy (picked id amounts tokenCoins) := by
  have hheld := hs.held_eq
  rw [hs.requested_eq] at hheld
  rw [UInt64.lt_iff_toNat_lt, UInt64.toNat_zero]
  omega

theorem Selects.totalQuantity_quantities
    (hs : Selects fees id amounts tokenCoins plainCoins s) :
    totalQuantity s.quantities = heldBy (picked id amounts tokenCoins) := by
  rw [← hs.held_eq, hs.quantities_eq, totalQuantity_cons]
  by_cases hpos : 0 < s.tokenChange
  · rw [if_pos hpos, totalQuantity_cons, totalQuantity_nil, Nat.add_zero]
  · have hzero : s.tokenChange.toNat = 0 := by
      rw [UInt64.lt_iff_toNat_lt, UInt64.toNat_zero] at hpos
      omega
    rw [if_neg hpos, totalQuantity_nil, hzero]

/-- **The quantities of a selection are what its inputs hold**, as numbers and whatever the size of
their sum.  The inputs with tokens are coins of the token, none of them taken more often than it is
there.  The first quantity is the sum of the request.  A second one is there just if the inputs hold
more, and then it is less than the largest input holds.  Only the total that the selection reports
is cut down to the range of a quantity. -/
theorem quantities_cover_inputs
    (h : select fees id amounts tokenCoins plainCoins = .ok s) :
    ∃ taken : List TokenCoin, s.tokenInputs = taken.map TokenCoin.coin ∧
      taken.Subperm tokenCoins ∧ (∀ c ∈ taken, c.tokenId = id) ∧
      totalQuantity s.quantities = heldBy taken ∧
      s.requested.toNat = totalQuantity amounts ∧
      s.quantities =
        s.requested :: (if totalQuantity amounts < heldBy taken then [s.tokenChange] else []) ∧
      (taken ≠ [] → ∃ c ∈ taken, (∀ d ∈ taken, d.quantity ≤ c.quantity) ∧
        s.tokenChange < c.quantity) ∧
      s.inputTokens.toNat = min (heldBy taken) maxQuantity := by
  have hs := selects_of_select h
  refine ⟨picked id amounts tokenCoins, hs.tokenInputs_eq, picked_subperm _ _ _,
    fun c => tokenId_of_mem_picked, hs.totalQuantity_quantities, hs.requested_eq, ?_, ?_, ?_⟩
  · simp only [← hs.tokenChange_pos_iff]
    exact hs.quantities_eq
  · intro hne
    obtain ⟨as, c, hlast⟩ := (List.eq_nil_or_concat' _).resolve_left hne
    have hmem : c ∈ picked id amounts tokenCoins := by
      rw [hlast]
      exact List.mem_append_right as (List.mem_singleton_self c)
    exact ⟨c, hmem, le_of_picked_eq_append hlast, hs.tokenChange_lt hlast⟩
  · rw [hs.inputTokens_eq, toNat_clampQuantity]

/-- The inputs hold more than any quantity, and nothing of it is lost. -/
theorem quantities_cover_inputs_sample :
    ∃ (id : TokenId) (s : Selection) (taken : List TokenCoin),
      select {} id [18446744073709551615]
          [⟨id, 18446744073709551615, ⟨"t", 1, 546, ""⟩⟩, ⟨id, 5, ⟨"t", 2, 546, ""⟩⟩]
          [⟨"p", 0, 10000, ""⟩] = .ok s ∧
        s.tokenInputs = taken.map TokenCoin.coin ∧ s.quantities = [18446744073709551615, 5] ∧
        heldBy taken = 18446744073709551620 := by
  have h : select {} ⟨⟨List.replicate 32 7, rfl⟩⟩ [18446744073709551615]
      [⟨⟨⟨List.replicate 32 7, rfl⟩⟩, 18446744073709551615, ⟨"t", 1, 546, ""⟩⟩,
        ⟨⟨⟨List.replicate 32 7, rfl⟩⟩, 5, ⟨"t", 2, 546, ""⟩⟩]
      [⟨"p", 0, 10000, ""⟩] = .ok {
        tokenId := ⟨⟨List.replicate 32 7, rfl⟩⟩
        quantities := [18446744073709551615, 5]
        change := 9324
        fee := 232
        dust := 1092
        inputs := [⟨"t", 2, 546, ""⟩, ⟨"t", 1, 546, ""⟩, ⟨"p", 0, 10000, ""⟩]
        tokenInputCount := 2
        inputTokens := 18446744073709551615 } := by
    cbv
  obtain ⟨taken, hinputs, -, -, hheld, -⟩ := quantities_cover_inputs h
  exact ⟨_, _, taken, h, hinputs, rfl, hheld.symm⟩

end Selection
end SimpleLedger
