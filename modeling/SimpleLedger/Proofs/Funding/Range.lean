import SimpleLedger.Proofs.Fees
import SimpleLedger.Proofs.Funding.Sufficiency

/-!
# Totals of coins stay in range

What coins are worth may be less than nothing, and partial sums may fall before they rise.  If there
are not too many coins, and they are worth no more than could ever be there, then every partial sum
is far from the ends of the range.

* `LedgerSized` says so of the coins that a transaction may pay with.
* `Fees.Modest.within_addInputs?` and `Fees.Modest.exists_select?`: adding inputs up, and adding
  coins until there is enough, have a result.
-/

set_option autoImplicit false

namespace SimpleLedger

open Satoshi (InRange Within)

/-! ## Coins of a ledger -/

/-- There are about a million coins at most, and they hold no more than 21 million units of
`10 ^ 8` satoshi. -/
structure Sized (coins : List Coin) : Prop where
  length_le : coins.length ≤ 2 ^ 20
  nonneg : ∀ c ∈ coins, 0 ≤ c.value
  total_le : (coins.map fun c => c.value.toInt).sum ≤ 2100000000000000

/-- The same for coins with tokens and coins without, which hold no more than that together. -/
structure LedgerSized (tokenCoins : List TokenCoin) (plainCoins : List Coin) : Prop where
  tokenCoins_length_le : tokenCoins.length ≤ 2 ^ 20
  plainCoins_length_le : plainCoins.length ≤ 2 ^ 20
  nonneg : ∀ c ∈ tokenCoins.map TokenCoin.coin ++ plainCoins, 0 ≤ c.value
  total_le : ((tokenCoins.map TokenCoin.coin ++ plainCoins).map fun c => c.value.toInt).sum ≤
    2100000000000000

theorem sum_value_nonneg {coins : List Coin} (h : ∀ c ∈ coins, 0 ≤ c.value) :
    0 ≤ (coins.map fun c => c.value.toInt).sum := by
  refine List.sum_nonneg fun n hn => ?_
  obtain ⟨c, hc, rfl⟩ := List.mem_map.1 hn
  exact Int64.le_iff_toInt_le.1 (h c hc)

namespace Sized

variable {coins : List Coin}

theorem of_subperm {fewer : List Coin} (h : Sized coins) (hsub : fewer.Subperm coins) :
    Sized fewer := by
  refine ⟨hsub.length_le.trans h.length_le, fun c hc => h.nonneg c (hsub.subset hc), ?_⟩
  obtain ⟨l, hperm, hl⟩ := hsub
  rw [← (hperm.map _).sum_eq]
  refine ((hl.map _).sum_le_sum fun n hn => ?_).trans h.total_le
  obtain ⟨c, hc, rfl⟩ := List.mem_map.1 hn
  exact Int64.le_iff_toInt_le.1 (h.nonneg c hc)

theorem value_le (h : Sized coins) {c : Coin} (hc : c ∈ coins) :
    0 ≤ c.value.toInt ∧ c.value.toInt ≤ 2100000000000000 := by
  have hone := h.of_subperm (List.singleton_subperm_iff.2 hc)
  have hle := hone.total_le
  rw [List.map_singleton, List.sum_singleton] at hle
  exact ⟨Int64.le_iff_toInt_le.1 (h.nonneg c hc), hle⟩

end Sized

namespace LedgerSized

variable {tokenCoins : List TokenCoin} {plainCoins : List Coin}

theorem tokens (h : LedgerSized tokenCoins plainCoins) : Sized (tokenCoins.map TokenCoin.coin) := by
  have hnonneg := List.forall_mem_append.1 h.nonneg
  have htotal := h.total_le
  rw [List.map_append, List.sum_append] at htotal
  have := sum_value_nonneg hnonneg.2
  exact ⟨(List.length_map _).trans_le h.tokenCoins_length_le, hnonneg.1, by omega⟩

theorem plain (h : LedgerSized tokenCoins plainCoins) : Sized plainCoins := by
  have hnonneg := List.forall_mem_append.1 h.nonneg
  have htotal := h.total_le
  rw [List.map_append, List.sum_append] at htotal
  have := sum_value_nonneg hnonneg.1
  exact ⟨h.plainCoins_length_le, hnonneg.2, by omega⟩

end LedgerSized

/-! ## Totals -/

theorem Fees.exists_addInputs? {fees : Fees} {coins : List Coin} {total : Satoshi}
    (h : ∀ p c, p ++ [c] <+: coins → InRange (c.value.toInt - fees.perInput.toInt) ∧
      InRange (total.toInt + fees.worth (p ++ [c]))) :
    ∃ t, fees.addInputs? total coins = some t := by
  induction coins generalizing total with
  | nil => exact ⟨total, rfl⟩
  | cons c coins ih =>
    obtain ⟨t, ht⟩ := exists_addInput?_iff.2 (by simpa using h [] c (by simp))
    have htotal := toInt_of_addInput? ht
    obtain ⟨s, hs⟩ := @ih t fun p d hp => by
      have := h (c :: p) d (List.cons_prefix_cons.2 ⟨rfl, hp⟩)
      rwa [List.cons_append, worth_cons, ← Int.add_assoc, ← htotal] at this
    exact ⟨s, by rw [addInputs?, List.foldlM_cons, ht]; exact hs⟩

namespace Fees.Modest

variable {fees : Fees} {coins : List Coin}

theorem worth_bounds (h : fees.Modest) (hcoins : Sized coins) :
    -2 ^ 40 ≤ fees.worth coins ∧ fees.worth coins ≤ 2100000000000000 := by
  have hsum := fees.sum_value_eq_worth_add coins
  have hnonneg := sum_value_nonneg hcoins.nonneg
  have htotal := hcoins.total_le
  have hlength := hcoins.length_le
  obtain ⟨hlo, hhi⟩ := h.perInput.mul_natCast coins.length
  rw [Int.mul_comm] at hsum
  omega

/-- The amounts that come up while coins are added to a total. -/
theorem inRange_of_isPrefix (h : fees.Modest) (hcoins : Sized coins) {n : Int} (hlo : -2 ^ 41 ≤ n)
    (hhi : n ≤ 2 ^ 52) {p : List Coin} {c : Coin} (hp : p ++ [c] <+: coins) :
    InRange (c.value.toInt - fees.perInput.toInt) ∧ InRange (n + fees.worth (p ++ [c])) := by
  have hc : c ∈ coins := hp.subset (List.mem_append_right p (List.mem_singleton_self c))
  obtain ⟨hvalueLo, hvalueHi⟩ := hcoins.value_le hc
  obtain ⟨hinputLo, hinputHi⟩ := h.perInput
  obtain ⟨hworthLo, hworthHi⟩ := h.worth_bounds (hcoins.of_subperm hp.sublist.subperm)
  exact ⟨⟨by omega, by omega⟩, ⟨by omega, by omega⟩⟩

/-- **Adding inputs up.** -/
theorem within_addInputs? (h : fees.Modest) (hcoins : Sized coins) :
    Within (-2 ^ 40) 2100000000000000 (fees.addInputs? 0 coins) := by
  obtain ⟨t, ht⟩ : ∃ t, fees.addInputs? 0 coins = some t := by
    refine exists_addInputs? fun p c hp => ?_
    rw [Int64.toInt_zero]
    exact h.inRange_of_isPrefix hcoins (by decide) (by decide) hp
  have htotal := toInt_of_addInputs? ht
  rw [Int64.toInt_zero, Int.zero_add] at htotal
  exact ⟨t, ht, htotal ▸ h.worth_bounds hcoins⟩

/-- **Adding coins** until there is enough, from a total that is in range by a wide margin. -/
theorem exists_select? (h : fees.Modest) (hcoins : Sized coins) {already : Satoshi}
    (required : Satoshi) (hlo : -2 ^ 41 ≤ already.toInt) (hhi : already.toInt ≤ 2 ^ 52) :
    ∃ f, Funding.select? fees coins already required = some f ∧
      -2 ^ 42 ≤ f.total.toInt ∧ f.total.toInt ≤ 2 ^ 53 := by
  have horder : Sized (Funding.order coins) :=
    hcoins.of_subperm (Funding.isStableSort_order coins).perm.subperm
  obtain ⟨f, hf⟩ : ∃ f, Funding.select? fees coins already required = some f :=
    Funding.exists_select?_iff.2 fun p c hp _ => h.inRange_of_isPrefix horder hlo hhi hp
  obtain ⟨hpre, htotal⟩ := Funding.select?_eq_some hf
  obtain ⟨hworthLo, hworthHi⟩ := h.worth_bounds (horder.of_subperm hpre.sublist.subperm)
  exact ⟨f, hf, by omega, by omega⟩

end Fees.Modest
end SimpleLedger
