import SimpleLedger.Proofs.Wallet.Broadcasts

/-!
# No double spend

A recorded draft takes its coins away, and later ones are planned for what is left.

* `Broadcasts.tokens_eq` and `Broadcasts.plain_eq`: the coins that are left are those that no draft
  spends.
* `Broadcasts.pairwise_disjoint`: no two drafts spend the same outpoint.
* `Machine.no_double_spend`: the same for actions side by side, whatever the order of their steps.
-/

set_option autoImplicit false

namespace SimpleLedger
namespace Wallet

/-- All outpoints that drafts spend. -/
def spentBy (done : List (Action × Draft)) : List String := done.flatMap fun p => p.2.spent

theorem spentBy_concat (done : List (Action × Draft)) (a : Action) (d : Draft) :
    spentBy (done ++ [(a, d)]) = spentBy done ++ d.spent := by
  rw [spentBy, List.flatMap_append, List.flatMap_singleton, spentBy]

/-- Two filters by outpoint are one. -/
theorem filter_not_contains {α : Type} (f : α → String) (xs ys : List String) (l : List α) :
    ((l.filter fun c => !xs.contains (f c)).filter fun c => !ys.contains (f c)) =
      l.filter fun c => !(xs ++ ys).contains (f c) := by
  rw [List.filter_filter]
  congr 1
  funext c
  rw [List.contains_eq_mem, List.contains_eq_mem, List.contains_eq_mem]
  simp [Bool.and_comm]

/-- Planned inputs are among the coins. -/
theorem Action.Plans.inputs_subperm {config : Config} {b : Backend} {a : Action} {d : Draft}
    (h : a.Plans config b d) : d.inputs.Subperm b.coins := by
  obtain ⟨picked, plain, -, hinputs, hpicked, hplain, -, -⟩ := h.exists_moves
  rw [hinputs]
  exact (subperm_map _ hpicked).append hplain

namespace Broadcasts

variable {config : Config} {b b' : Backend} {done : List (Action × Draft)}

/-! ## Histories -/

theorem recorded_eq (h : Broadcasts config b done b') :
    b'.recorded = b.recorded ++ done.map Prod.snd := by
  induction h with
  | start => rw [List.map_nil, List.append_nil]
  | commit _ _ ih =>
    rw [List.map_append, ← List.append_assoc, ← ih]
    rfl
  | between _ hcoins ih => rw [hcoins.recorded, ih]

theorem tokens_eq (h : Broadcasts config b done b') :
    b'.tokens = b.tokens.filter fun c => !(spentBy done).contains c.coin.outpoint := by
  induction h with
  | start => exact (List.filter_eq_self.2 fun _ _ => rfl).symm
  | commit _ _ ih =>
    rw [Backend.tokens_record, ih, spentBy_concat]
    exact filter_not_contains (fun c : TokenCoin => c.coin.outpoint) _ _ _
  | between _ hcoins ih => rw [hcoins.tokens, ih]

theorem plain_eq (h : Broadcasts config b done b') :
    b'.plain = b.plain.filter fun c => !(spentBy done).contains c.outpoint := by
  induction h with
  | start => exact (List.filter_eq_self.2 fun _ _ => rfl).symm
  | commit _ _ ih => rw [Backend.plain_record, ih, spentBy_concat, filter_not_contains]
  | between _ hcoins ih => rw [hcoins.plain, ih]

/-- The coins that are left are those that no draft spends. -/
theorem coins_eq (h : Broadcasts config b done b') :
    b'.coins = b.coins.filter fun c => !(spentBy done).contains c.outpoint := by
  rw [Backend.coins, h.tokens_eq, h.plain_eq, Backend.coins, List.filter_append, List.filter_map]
  rfl

/-- What is planned next has not been spent. -/
theorem disjoint_of_plans (h : Broadcasts config b done b') {a : Action} {d : Draft}
    (hd : a.Plans config b' d) : (spentBy done).Disjoint d.spent := by
  intro o ho hspent
  obtain ⟨c, hc, rfl⟩ := List.mem_map.1 hspent
  have hleft := hd.inputs_subperm.subset hc
  rw [h.coins_eq, List.mem_filter, List.contains_eq_mem] at hleft
  simp [ho] at hleft

/-- **No two drafts** spend the same outpoint. -/
theorem pairwise_disjoint (h : Broadcasts config b done b') :
    (done.map Prod.snd).Pairwise fun d e => d.spent.Disjoint e.spent := by
  induction h with
  | start => exact .nil
  | @commit done b' a d h hd ih =>
    rw [List.map_append, List.pairwise_append]
    refine ⟨ih, List.pairwise_singleton _ _, fun e he e' he' => ?_⟩
    rw [List.map_singleton, List.mem_singleton] at he'
    subst he'
    obtain ⟨p, hp, rfl⟩ := List.mem_map.1 he
    exact fun o ho => h.disjoint_of_plans hd (List.mem_flatMap.2 ⟨p, hp, ho⟩)
  | between _ _ ih => exact ih

/-- Where no two coins share an outpoint, no draft spends one twice. -/
theorem nodup_spent (h : Broadcasts config b done b')
    (hb : (b.coins.map Coin.outpoint).Nodup) : ∀ p ∈ done, p.2.spent.Nodup := by
  induction h with
  | start => exact nofun
  | @commit done b' a d h hd ih =>
    intro p hp
    rw [List.mem_append, List.mem_singleton] at hp
    rcases hp with hp | rfl
    · exact ih p hp
    · have hsub : b'.coins.Sublist b.coins := h.coins_eq ▸ List.filter_sublist
      obtain ⟨l, hperm, hl⟩ := subperm_map Coin.outpoint hd.inputs_subperm
      exact hperm.nodup_iff.1 (hb.sublist (hl.trans (hsub.map _)))
  | between _ _ ih => exact ih

end Broadcasts

/-! ## Actions side by side -/

/-- **No double spend.**  Let actions run side by side, with their steps in any order.  No two
drafts that are recorded spend the same outpoint, and none spends an outpoint twice if no two coins
share one.  A step records one draft at most, and its inputs are still there at that moment. -/
theorem Machine.no_double_spend (config : Config) (b : Backend) (actions : List Action)
    (schedule : List Nat) :
    let m := (start b (actions.map (Action.procedure config))).exec schedule
    (∃ drafts, m.backend.recorded = b.recorded ++ drafts ∧
      drafts.Pairwise (fun d e => d.spent.Disjoint e.spent) ∧
      ((b.coins.map Coin.outpoint).Nodup → ∀ d ∈ drafts, d.spent.Nodup)) ∧
    ∀ i, (m.step i).backend.recorded = m.backend.recorded ∨
      ∃ d, (m.step i).backend.recorded = m.backend.recorded ++ [d] ∧
        ∀ c ∈ d.inputs, c ∈ m.backend.coins := by
  intro m
  obtain ⟨hdisciplined, done, hdone, -⟩ := exec_broadcasts config b actions schedule
  refine ⟨⟨done.map Prod.snd, hdone.recorded_eq, hdone.pairwise_disjoint, fun hb d hd => ?_⟩,
    fun i => ?_⟩
  · obtain ⟨p, hp, rfl⟩ := List.mem_map.1 hd
    exact hdone.nodup_spent hb p hp
  · cases (hdisciplined.step i).2 with
    | quiet hb _ => exact .inl (Backend.SameCoins.of_unlogged_eq hb).recorded
    | @commit a d hd hb _ =>
      exact .inr ⟨d, congrArg Backend.recorded hb, fun c hc => hd.inputs_subperm.subset hc⟩

end Wallet
end SimpleLedger
