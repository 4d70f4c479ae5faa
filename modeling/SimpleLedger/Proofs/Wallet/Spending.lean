import SimpleLedger.Proofs.Coin
import SimpleLedger.Proofs.Wallet.Conservation

/-!
# What is spent and what is left

A backend compares texts to tell which of its coins a draft spends.  Since outpoints are
unambiguous, these are the coins that are an input of the draft: the same output of the same
transaction.

* `Draft.Spends` says this without a text, and `Draft.outpoint_mem_spent_iff` that texts say the
  same.
* `Backend.tokenCoins_record` and `Backend.plainCoins_record`: what one draft leaves.
* `Broadcasts.tokens_eq_unspent` and `Broadcasts.plain_eq_unspent`: what a history leaves, and by
  `Broadcasts.pairwise_not_spends` it takes nothing twice.
* `outpoints_unambiguous` puts these together.
-/

set_option autoImplicit false

namespace SimpleLedger

namespace Draft

/-- Whether a coin is an input of a draft, by its transaction and its place among the outputs. -/
def Spends (d : Draft) (c : Coin) : Prop := ∃ i ∈ d.inputs, i.txid = c.txid ∧ i.vout = c.vout

instance (d : Draft) : DecidablePred d.Spends := fun c =>
  inferInstanceAs (Decidable (∃ i ∈ d.inputs, i.txid = c.txid ∧ i.vout = c.vout))

theorem outpoint_mem_spent_iff {d : Draft} {c : Coin} : c.outpoint ∈ d.spent ↔ d.Spends c := by
  rw [spent, List.mem_map]
  simp only [Coin.outpoint_eq_iff]
  rfl

theorem not_contains_spent (d : Draft) (c : Coin) :
    (!d.spent.contains c.outpoint) = decide ¬d.Spends c := by
  rw [List.contains_eq_mem, decide_not]
  simp only [outpoint_mem_spent_iff]

end Draft

namespace Wallet

/-! ## One draft -/

namespace Backend

theorem tokenCoins_record (b : Backend) (d : Draft) :
    (b.record d).tokenCoins = b.tokenCoins.filter fun h => ¬d.Spends h.coin.coin :=
  List.filter_congr fun h _ => d.not_contains_spent h.coin.coin

theorem plainCoins_record (b : Backend) (d : Draft) :
    (b.record d).plainCoins = b.plainCoins.filter fun h => ¬d.Spends h.coin :=
  List.filter_congr fun h _ => d.not_contains_spent h.coin

end Backend

/-! ## Histories -/

theorem not_contains_spentBy (done : List (Action × Draft)) (c : Coin) :
    (!(spentBy done).contains c.outpoint) = decide (∀ d ∈ done.map Prod.snd, ¬d.Spends c) := by
  rw [List.contains_eq_mem, ← decide_not, decide_eq_decide, spentBy, List.mem_flatMap]
  simp only [Draft.outpoint_mem_spent_iff, List.forall_mem_map, not_exists, not_and]

namespace Broadcasts

variable {config : Config} {b b' : Backend} {done : List (Action × Draft)}

theorem tokens_eq_unspent (h : Broadcasts config b done b') :
    b'.tokens = b.tokens.filter fun c => ∀ d ∈ done.map Prod.snd, ¬d.Spends c.coin := by
  rw [h.tokens_eq]
  exact List.filter_congr fun c _ => not_contains_spentBy done c.coin

theorem plain_eq_unspent (h : Broadcasts config b done b') :
    b'.plain = b.plain.filter fun c => ∀ d ∈ done.map Prod.snd, ¬d.Spends c := by
  rw [h.plain_eq]
  exact List.filter_congr fun c _ => not_contains_spentBy done c

/-- No coin is an input of two drafts. -/
theorem pairwise_not_spends (h : Broadcasts config b done b') :
    (done.map Prod.snd).Pairwise fun d e => ∀ c ∈ e.inputs, ¬d.Spends c := by
  refine h.pairwise_disjoint.imp fun hdisjoint c hc hspends => ?_
  exact hdisjoint (Draft.outpoint_mem_spent_iff.2 hspends) (List.mem_map_of_mem hc)

end Broadcasts

/-! ## Sessions -/

/-- **Outpoints are unambiguous.**  They are the same text only for the same output of the same
transaction, and so a recorded draft takes away the coins that are an input of it and leaves the
others, in their order.  After a session what is left are the coins that no recorded draft has as an
input, and none is an input of two of them. -/
theorem outpoints_unambiguous :
    (∀ c c' : Coin, c.outpoint = c'.outpoint ↔ c.txid = c'.txid ∧ c.vout = c'.vout) ∧
    (∀ (b : Backend) (d : Draft),
      (b.record d).tokenCoins = b.tokenCoins.filter (fun h => ¬d.Spends h.coin.coin) ∧
      (b.record d).plainCoins = b.plainCoins.filter (fun h => ¬d.Spends h.coin)) ∧
    ∀ (config : Config) (b b' : Backend) (finished : List (Action × Outcome)),
      Run config b finished b' →
      ∃ drafts, b'.recorded = b.recorded ++ drafts ∧
        b'.tokens = b.tokens.filter (fun c => ∀ d ∈ drafts, ¬d.Spends c.coin) ∧
        b'.plain = b.plain.filter (fun c => ∀ d ∈ drafts, ¬d.Spends c) ∧
        drafts.Pairwise fun d e => ∀ c ∈ e.inputs, ¬d.Spends c := by
  refine ⟨fun _ _ => Coin.outpoint_eq_iff,
    fun b d => ⟨b.tokenCoins_record d, b.plainCoins_record d⟩, fun config b b' finished h => ?_⟩
  obtain ⟨done, hdone, -⟩ := h.exists_broadcasts
  exact ⟨done.map Prod.snd, hdone.recorded_eq, hdone.tokens_eq_unspent, hdone.plain_eq_unspent,
    hdone.pairwise_not_spends⟩

/-- A backend where names of transactions hold colons, and digits run on from them. -/
def sampleColons : Backend :=
  { sampleBackend with
    tokenCoins := [⟨⟨Assembly.sampleToken, 1, ⟨"t:1", 1, 546, ""⟩⟩, false⟩,
      ⟨⟨Assembly.sampleToken, 40, ⟨"t", 11, 546, ""⟩⟩, false⟩]
    plainCoins := [⟨⟨"t", 1, 10000, ""⟩, false⟩, ⟨⟨"t:1", 11, 10000, ""⟩, false⟩] }

/-- A unit and a coin to pay with are spent, and of each sort the other coin is left. -/
theorem outpoints_unambiguous_sample :
    ∃ after d, Run {} sampleColons [(sampleChild, .ok "tx1")] after ∧ after.recorded = [d] ∧
      after.tokens = sampleColons.tokens.filter (fun c => ¬d.Spends c.coin) ∧
      after.plain = sampleColons.plain.filter (fun c => ¬d.Spends c) ∧
      after.tokens = [⟨Assembly.sampleToken, 40, ⟨"t", 11, 546, ""⟩⟩] ∧
      after.plain = [⟨"t:1", 11, 10000, ""⟩] := by
  have hrun : Run {} sampleColons _ _ := Run.start.act sampleChild
  have hchild : (sampleColons.act {} sampleChild).1 = .ok "tx1" := by cbv
  rw [hchild, List.nil_append] at hrun
  obtain ⟨drafts, hrecorded, htokens, hplain, -⟩ := outpoints_unambiguous.2.2 _ _ _ _ hrun
  have hlength : (sampleColons.act {} sampleChild).2.recorded.length = 1 := by cbv
  obtain ⟨d, rfl⟩ := List.length_eq_one_iff.1 ((congrArg List.length hrecorded).symm.trans hlength)
  simp only [List.forall_mem_singleton] at htokens hplain
  exact ⟨_, d, hrun, hrecorded, htokens, hplain, by cbv, by cbv⟩

end Wallet
end SimpleLedger
