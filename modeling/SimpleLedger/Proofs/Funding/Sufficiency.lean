import SimpleLedger.Error
import SimpleLedger.Proofs.Funding
import SimpleLedger.Proofs.Satoshi
import SimpleLedger.Proofs.StableSort

/-!
# When coins suffice

A coin may be worth less than the fee for spending it.  Such coins come first in the order in which
coins are taken, so that the totals of longer and longer prefixes fall before they rise.

* `Fees.worth_le_of_isPrefix`: no prefix is worth more than nothing at all and than all coins.
* `Funding.isFirstBeyond_of_select?`: a funding is the first prefix whose total exceeds what is
  required, or all coins.
* `Funding.exists_select?_iff`: the amounts that have to be in range for there to be a funding.
* `Funding.fallsShort_iff`: funding falls short just if what was there did not exceed what is
  required and all coins together do not make up for the difference.
* `Funding.Attempt` is how a transaction that pays with coins ends, and `Attempt.criterion` says
  which way.
-/

set_option autoImplicit false

namespace SimpleLedger

open Satoshi (InRange)

/-! ## The worth of coins in order -/

namespace Fees

variable {fees : Fees} {coins : List Coin}

theorem worth_nonneg (h : ∀ c ∈ coins, fees.perInput ≤ c.value) : 0 ≤ fees.worth coins := by
  refine List.sum_nonneg fun n hn => ?_
  obtain ⟨c, hc, rfl⟩ := List.mem_map.1 hn
  have := Int64.le_iff_toInt_le.1 (h c hc)
  omega

theorem worth_nonpos (h : ∀ c ∈ coins, c.value ≤ fees.perInput) : fees.worth coins ≤ 0 := by
  have hsum := List.sum_le_card_nsmul (coins.map fun c => c.value.toInt - fees.perInput.toInt) 0
    fun n hn => by
      obtain ⟨c, hc, rfl⟩ := List.mem_map.1 hn
      have := Int64.le_iff_toInt_le.1 (h c hc)
      omega
  rwa [smul_zero] at hsum

/-- **Totals fall before they rise.**  If a coin that is left out is worth less than its fee, then
so is every coin before it. -/
theorem worth_le_of_isPrefix {p : List Coin} (hsorted : coins.Pairwise fun a b => a.value ≤ b.value)
    (hp : p <+: coins) : fees.worth p ≤ 0 ∨ fees.worth p ≤ fees.worth coins := by
  obtain ⟨rest, rfl⟩ := hp
  by_cases hrest : ∀ c ∈ rest, fees.perInput ≤ c.value
  · right
    have := worth_nonneg hrest
    rw [worth_append]
    omega
  · left
    obtain ⟨c, hc, hlt⟩ : ∃ c ∈ rest, ¬fees.perInput ≤ c.value := by simpa using hrest
    refine worth_nonpos fun d hd => ?_
    have hdc := (List.pairwise_append.1 hsorted).2.2 d hd c hc
    exact Int64.le_trans hdc (Int64.le_of_lt (Int64.not_le.1 hlt))

theorem exists_addInput?_iff {total : Satoshi} {c : Coin} :
    (∃ t, fees.addInput? total c = some t) ↔
      InRange (c.value.toInt - fees.perInput.toInt) ∧
        InRange (total.toInt + (c.value.toInt - fees.perInput.toInt)) := by
  simp only [addInput?_eq_some_iff, ← Satoshi.exists_toInt_eq_iff]
  constructor
  · rintro ⟨t, net, hnet, ht⟩
    exact ⟨⟨net, hnet⟩, t, by rw [ht, hnet]⟩
  · rintro ⟨⟨net, hnet⟩, t, ht⟩
    exact ⟨t, net, hnet, by rw [ht, hnet]⟩

end Fees

namespace Funding

variable {fees : Fees} {coins : List Coin}

theorem isStableSort_order (coins : List Coin) : IsStableSort Coin.value coins (order coins) :=
  isStableSort_mergeSort Coin.value coins

theorem worth_order (fees : Fees) (coins : List Coin) :
    fees.worth (order coins) = fees.worth coins :=
  fees.worth_eq_of_perm (isStableSort_order coins).perm

/-! ## Where funding stops -/

/-- The first prefix that makes the total exceed what is required, or all of the coins. -/
def IsFirstBeyond (fees : Fees) (already required : Int) (coins taken : List Coin) : Prop :=
  (taken <+: coins ∧ required < already + fees.worth taken ∧
    ∀ p, p <+: coins → required < already + fees.worth p → taken <+: p) ∨
  (taken = coins ∧ ∀ p, p <+: coins → already + fees.worth p ≤ required)

theorem isFirstBeyond_of_select? {already required : Satoshi} {f : Funding}
    (h : select? fees coins already required = some f) :
    IsFirstBeyond fees already.toInt required.toInt (order coins) f.inputs := by
  obtain ⟨hpre, htotal, hshorter, hstops⟩ := select?_takes h
  by_cases hlt : required.toInt < f.total.toInt
  · refine .inl ⟨hpre, by rwa [← htotal], fun p hp hbeyond => ?_⟩
    -- of two prefixes of one list, one is a prefix of the other
    rcases List.prefix_or_prefix_of_prefix hpre hp with hle | hle
    · exact hle
    · by_cases heq : p = f.inputs
      · rw [heq]
      · have := hshorter p hle heq
        omega
  · have hall := hstops.resolve_left hlt
    refine .inr ⟨hall, fun p hp => ?_⟩
    by_cases heq : p = f.inputs
    · rw [heq, ← htotal]
      exact Int.not_lt.1 hlt
    · exact hshorter p (by rwa [hall]) heq

/-! ## When there is a funding -/

/-- The amounts that come up while coins are taken in the order given are in range.  A coin comes up
if no prefix before it makes the total exceed what is required. -/
def Fits (fees : Fees) (already required : Int) (coins : List Coin) : Prop :=
  ∀ p c, p ++ [c] <+: coins → (∀ q, q <+: p → already + fees.worth q ≤ required) →
    InRange (c.value.toInt - fees.perInput.toInt) ∧ InRange (already + fees.worth (p ++ [c]))

theorem exists_take?_iff {required total : Satoshi} :
    (∃ f, take? fees required total coins = some f) ↔
      Fits fees total.toInt required.toInt coins := by
  induction coins generalizing total with
  | nil =>
    refine iff_of_true ⟨_, rfl⟩ fun p c hp => ?_
    simp at hp
  | cons c coins ih =>
    by_cases hlt : required < total
    -- nothing is taken, and no coin comes up: the empty prefix exceeds what is required
    · refine iff_of_true ⟨⟨[], total⟩, by rw [take?, if_pos hlt]⟩ fun p d _ hbefore => ?_
      have := hbefore [] List.nil_prefix
      rw [Int64.lt_iff_toInt_lt] at hlt
      rw [Fees.worth_nil] at this
      omega
    -- the first coin is added, and from the new total on it is the induction hypothesis
    have hstep : (∃ f, take? fees required total (c :: coins) = some f) ↔
        ∃ t, fees.addInput? total c = some t ∧ ∃ f, take? fees required t coins = some f := by
      rw [take?, if_neg hlt]
      simp only [Option.bind_eq_bind, Option.bind_eq_some_iff]
      constructor
      · rintro ⟨-, t, ht, rest, hrest, -⟩
        exact ⟨t, ht, rest, hrest⟩
      · rintro ⟨t, ht, rest, hrest⟩
        exact ⟨_, t, ht, rest, hrest, rfl⟩
    rw [Int64.lt_iff_toInt_lt, Int.not_lt] at hlt
    rw [hstep]
    constructor
    · rintro ⟨t, ht, hf⟩ p d hp hbefore
      have htotal := Fees.toInt_of_addInput? ht
      rcases p with _ | ⟨e, p⟩
      · obtain ⟨rfl, -⟩ := List.cons_prefix_cons.1 hp
        simpa using Fees.exists_addInput?_iff.1 ⟨t, ht⟩
      · obtain ⟨rfl, hrest⟩ := List.cons_prefix_cons.1 hp
        have := ih.1 hf p d hrest fun q hq => by
          have := hbefore (e :: q) (List.cons_prefix_cons.2 ⟨rfl, hq⟩)
          rw [Fees.worth_cons] at this
          omega
        rwa [List.cons_append, Fees.worth_cons, ← Int.add_assoc, ← htotal]
    · intro h
      have hhead := h [] c (by simp) fun q hq => by
        rw [List.prefix_nil.1 hq, Fees.worth_nil, Int.add_zero]
        exact hlt
      obtain ⟨t, ht⟩ := Fees.exists_addInput?_iff.2 (by simpa using hhead)
      have htotal := Fees.toInt_of_addInput? ht
      refine ⟨t, ht, ih.2 fun p d hp hbefore => ?_⟩
      have := h (c :: p) d (List.cons_prefix_cons.2 ⟨rfl, hp⟩) fun q hq => by
        rcases q with _ | ⟨e, q⟩
        · rw [Fees.worth_nil, Int.add_zero]
          exact hlt
        · obtain ⟨rfl, hqp⟩ := List.cons_prefix_cons.1 hq
          rw [Fees.worth_cons, ← Int.add_assoc, ← htotal]
          exact hbefore q hqp
      rwa [List.cons_append, Fees.worth_cons, ← Int.add_assoc, ← htotal] at this

theorem exists_select?_iff {already required : Satoshi} :
    (∃ f, select? fees coins already required = some f) ↔
      Fits fees already.toInt required.toInt (order coins) :=
  exists_take?_iff

/-! ## When it does not suffice -/

/-- No prefix exceeds what is required, and all coins do not meet it exactly. -/
def FallsShort (fees : Fees) (coins : List Coin) (already required : Int) : Prop :=
  (∀ p, p <+: order coins → already + fees.worth p ≤ required) ∧
    already + fees.worth coins ≠ required

theorem fallsShort_iff {already required : Int} :
    FallsShort fees coins already required ↔
      already ≤ required ∧ already + fees.worth coins < required := by
  constructor
  · rintro ⟨hle, hne⟩
    have hnone := hle [] List.nil_prefix
    have hall := hle (order coins) List.prefix_rfl
    rw [Fees.worth_nil] at hnone
    rw [worth_order] at hall
    omega
  · rintro ⟨hnone, hall⟩
    refine ⟨fun p hp => ?_, by omega⟩
    have hworth : fees.worth p ≤ 0 ∨ fees.worth p ≤ fees.worth (order coins) :=
      Fees.worth_le_of_isPrefix (isStableSort_order coins).sorted hp
    rw [worth_order] at hworth
    omega

theorem total_lt_iff {already required : Satoshi} {f : Funding}
    (h : select? fees coins already required = some f) :
    f.total.toInt < required.toInt ↔ FallsShort fees coins already.toInt required.toInt := by
  obtain ⟨hpre, htotal, hshorter, hstops⟩ := select?_takes h
  constructor
  · intro hlt
    have hall : f.inputs = order coins := hstops.resolve_left (by omega)
    rw [hall, worth_order] at htotal
    refine fallsShort_iff.2 ⟨?_, by omega⟩
    by_cases hnil : [] = f.inputs
    · have : fees.worth coins = 0 := by rw [← worth_order, ← hall, ← hnil, Fees.worth_nil]
      omega
    · have := hshorter [] List.nil_prefix hnil
      rw [Fees.worth_nil] at this
      omega
  · rintro ⟨hnone, hne⟩
    have hle := hnone f.inputs hpre
    have hall : f.inputs = order coins := hstops.resolve_left (by omega)
    rw [hall, worth_order] at htotal hle
    omega

/-- Coins that are together worth their fees do not make what is there fall short. -/
theorem FallsShort.of_perm_append {fewer more : List Coin} {already required : Int}
    (h : FallsShort fees coins already required) (hperm : coins.Perm (fewer ++ more))
    (hmore : 0 ≤ fees.worth more) : FallsShort fees fewer already required := by
  rw [fallsShort_iff, fees.worth_eq_of_perm hperm, Fees.worth_append] at h
  rw [fallsShort_iff]
  omega

/-! ## Transactions that pay with coins -/

/-- How a transaction ends that has to pay what is required and to add coins for it: `built` says
what comes of a funding that suffices. -/
inductive Attempt {α : Type} (fees : Fees) (coins : List Coin) (already required : Satoshi)
    (built : Funding → α → Prop) : Except Error α → Prop
  | short {f : Funding} (hf : select? fees coins already required = some f)
      (hlt : f.total.toInt < required.toInt) :
      Attempt fees coins already required built
        (.error (.selection (.insufficientCurrency required f.total)))
  | paid {f : Funding} {a : α} (hf : select? fees coins already required = some f)
      (hle : required.toInt ≤ f.total.toInt) (ha : built f a) :
      Attempt fees coins already required built (.ok a)

/-- When such a transaction fails for want of coins, and when it succeeds if no coin is worth less
than its fee. -/
structure Criterion {α : Type} (fees : Fees) (coins : List Coin) (already required : Int)
    (result : Except Error α) : Prop where
  short_iff : (∃ needed available,
      result = .error (.selection (.insufficientCurrency needed available))) ↔
    FallsShort fees coins already required
  ok_iff : (∀ c ∈ coins, fees.perInput ≤ c.value) →
    ((∃ a, result = .ok a) ↔ required ≤ already + fees.worth coins)

variable {α : Type} {already required : Satoshi} {built : Funding → α → Prop}

/-- A transaction looks at what is left. -/
theorem Attempt.of_leftover {f : Funding} {leftover : Satoshi} {a : α}
    (hf : select? fees coins already required = some f)
    (hleftover : leftover.toInt = f.total.toInt - required.toInt)
    (ha : 0 ≤ leftover.toInt → built f a) :
    Attempt fees coins already required built
      (if leftover < 0 then .error (.selection (.insufficientCurrency required f.total))
        else .ok a) := by
  split
  next hlt =>
    rw [Int64.lt_iff_toInt_lt, Int64.toInt_zero] at hlt
    exact .short hf (by omega)
  next hle =>
    rw [Int64.lt_iff_toInt_lt, Int64.toInt_zero, Int.not_lt] at hle
    exact .paid hf (by omega) (ha hle)

theorem Attempt.criterion {result : Except Error α}
    (h : Attempt fees coins already required built result) :
    Criterion fees coins already.toInt required.toInt result := by
  cases h with
  | short hf hlt =>
    have hshort := (total_lt_iff hf).1 hlt
    refine ⟨iff_of_true ⟨_, _, rfl⟩ hshort, fun _ => iff_of_false nofun ?_⟩
    have := (fallsShort_iff.1 hshort).2
    omega
  | paid hf hle ha =>
    refine ⟨iff_of_false nofun fun hshort => ?_, fun hvalues => iff_of_true ⟨_, rfl⟩ ?_⟩
    · have := (total_lt_iff hf).2 hshort
      omega
    · obtain ⟨⟨rest, hrest⟩, htotal, -⟩ := select?_takes hf
      have hnonneg : 0 ≤ fees.worth rest := by
        refine Fees.worth_nonneg fun c hc => hvalues c ?_
        rw [← (isStableSort_order coins).perm.mem_iff, ← hrest]
        exact List.mem_append_right _ hc
      rw [← worth_order, ← hrest, Fees.worth_append]
      omega

end Funding
end SimpleLedger
