import Mathlib
import SimpleLedger.Selection.Funding

/-!
# What funding takes

Totals are sums of signed words, and every partial sum is checked.  Here they are sums of integers:
`Fees.worth` is what inputs are worth together, and `Funding.select?_eq_some` says that a funding
takes a prefix of the coins by ascending value and totals what was there before and the worth of
that prefix.  `Funding.select?_takes` says as well where that prefix ends.
-/

set_option autoImplicit false

namespace SimpleLedger

theorem subperm_map {α β : Type} (f : α → β) {l₁ l₂ : List α} (h : l₁.Subperm l₂) :
    (l₁.map f).Subperm (l₂.map f) := by
  obtain ⟨l, hperm, hsub⟩ := h
  exact ⟨l.map f, hperm.map f, hsub.map f⟩

/-! ## The worth of inputs -/

namespace Fees

/-- The values of inputs less the fees for spending them. -/
def worth (fees : Fees) (coins : List Coin) : Int :=
  (coins.map fun c => c.value.toInt - fees.perInput.toInt).sum

@[simp]
theorem worth_nil (fees : Fees) : fees.worth [] = 0 := rfl

@[simp]
theorem worth_cons (fees : Fees) (c : Coin) (coins : List Coin) :
    fees.worth (c :: coins) = c.value.toInt - fees.perInput.toInt + fees.worth coins := by
  rw [worth, List.map_cons, List.sum_cons, worth]

@[simp]
theorem worth_append (fees : Fees) (as bs : List Coin) :
    fees.worth (as ++ bs) = fees.worth as + fees.worth bs := by
  rw [worth, List.map_append, List.sum_append, worth, worth]

theorem worth_eq_of_perm (fees : Fees) {as bs : List Coin} (h : as.Perm bs) :
    fees.worth as = fees.worth bs :=
  (h.map _).sum_eq

theorem sum_value_eq_worth_add (fees : Fees) (coins : List Coin) :
    (coins.map fun c => c.value.toInt).sum =
      fees.worth coins + fees.perInput.toInt * coins.length := by
  induction coins with
  | nil => rw [worth_nil, List.map_nil, List.sum_nil, List.length_nil]; simp
  | cons c coins ih =>
    rw [List.map_cons, List.sum_cons, ih, worth_cons, List.length_cons, Int.natCast_succ,
      Int.mul_add]
    omega

theorem addInput?_eq_some_iff {fees : Fees} {total t : Satoshi} {c : Coin} :
    fees.addInput? total c = some t ↔
      ∃ net : Satoshi, net.toInt = c.value.toInt - fees.perInput.toInt ∧
        t.toInt = total.toInt + net.toInt := by
  rw [addInput?]
  simp only [Option.bind_eq_bind, Option.bind_eq_some_iff, Satoshi.sub?_eq_some_iff,
    Satoshi.add?_eq_some_iff]

theorem toInt_of_addInput? {fees : Fees} {total t : Satoshi} {c : Coin}
    (h : fees.addInput? total c = some t) :
    t.toInt = total.toInt + (c.value.toInt - fees.perInput.toInt) := by
  obtain ⟨net, hnet, ht⟩ := addInput?_eq_some_iff.1 h
  rw [ht, hnet]

theorem toInt_of_addInputs? {fees : Fees} {total t : Satoshi} {coins : List Coin}
    (h : fees.addInputs? total coins = some t) : t.toInt = total.toInt + fees.worth coins := by
  induction coins generalizing total with
  | nil =>
    cases h
    rw [worth_nil, Int.add_zero]
  | cons c coins ih =>
    rw [addInputs?, List.foldlM_cons, Option.bind_eq_bind, Option.bind_eq_some_iff] at h
    obtain ⟨u, hu, ht⟩ := h
    rw [ih ht, toInt_of_addInput? hu, worth_cons]
    omega

end Fees

/-! ## Taking coins -/

namespace Funding

/-- What comes of taking coins in the order given. -/
structure Takes (fees : Fees) (required total : Satoshi) (coins : List Coin) (f : Funding) :
    Prop where
  isPrefix : f.inputs <+: coins
  total_eq : f.total.toInt = total.toInt + fees.worth f.inputs
  /-- Nothing shorter would have done. -/
  le_of_shorter : ∀ p, p <+: f.inputs → p ≠ f.inputs → total.toInt + fees.worth p ≤ required.toInt
  stops : required.toInt < f.total.toInt ∨ f.inputs = coins

theorem take?_takes {fees : Fees} {required total : Satoshi} {coins : List Coin} {f : Funding}
    (h : take? fees required total coins = some f) : Takes fees required total coins f := by
  induction coins generalizing total f with
  | nil =>
    cases h
    exact ⟨List.prefix_rfl, by simp, fun p hp hne => absurd (List.prefix_nil.1 hp) hne, .inr rfl⟩
  | cons c coins ih =>
    rw [take?] at h
    split at h
    next hlt =>
      cases h
      exact ⟨List.nil_prefix, by simp, fun p hp hne => absurd (List.prefix_nil.1 hp) hne,
        .inl (Int64.lt_iff_toInt_lt.1 hlt)⟩
    next hle =>
    rw [Int64.lt_iff_toInt_lt, Int.not_lt] at hle
    rw [Option.bind_eq_bind, Option.bind_eq_some_iff] at h
    obtain ⟨t, ht, h⟩ := h
    rw [Option.bind_eq_bind, Option.bind_eq_some_iff] at h
    obtain ⟨rest, hrest, h⟩ := h
    cases h
    have ht := Fees.toInt_of_addInput? ht
    obtain ⟨hpre, htotal, hshorter, hstops⟩ := ih hrest
    refine ⟨List.cons_prefix_cons.2 ⟨rfl, hpre⟩, ?_, fun p hp hne => ?_,
      hstops.imp_right (congrArg (c :: ·))⟩
    · rw [htotal, ht, Fees.worth_cons]
      omega
    · rcases p with _ | ⟨d, p⟩
      · rw [Fees.worth_nil, Int.add_zero]
        exact hle
      · obtain ⟨rfl, hrestp⟩ := List.cons_prefix_cons.1 hp
        have := hshorter p hrestp fun heq => hne (congrArg (d :: ·) heq)
        rw [Fees.worth_cons]
        omega

theorem select?_takes {fees : Fees} {coins : List Coin} {already required : Satoshi} {f : Funding}
    (h : select? fees coins already required = some f) :
    Takes fees required already (order coins) f :=
  take?_takes h

/-- **A funding** takes coins from the lower end, and its total is their worth on top of what was
there before. -/
theorem select?_eq_some {fees : Fees} {coins : List Coin} {already required : Satoshi}
    {f : Funding} (h : select? fees coins already required = some f) :
    f.inputs <+: order coins ∧ f.total.toInt = already.toInt + fees.worth f.inputs :=
  ⟨(select?_takes h).isPrefix, (select?_takes h).total_eq⟩

/-- Nothing is taken that was not among the coins, and nothing more often than it was. -/
theorem subperm_of_select? {fees : Fees} {coins : List Coin} {already required : Satoshi}
    {f : Funding} (h : select? fees coins already required = some f) :
    f.inputs.Subperm coins :=
  (select?_eq_some h).1.sublist.subperm.trans (List.mergeSort_perm _ _).subperm

end Funding
end SimpleLedger
