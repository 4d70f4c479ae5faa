import SimpleLedger.Proofs.Wallet.Conservation

/-!
# Children and the units that they cost

To create a child is to burn a unit of its parent, and nothing else.  The unit goes into the
transaction, and the message does not send it on.

* `Backend.Burns` is what it means that a draft burns a coin, and `Backend.Burns.lost_eq` what is
  lost by it.
* `Action.Moves.exists_burns`: the draft of a child burns one coin, a unit of the parent.
* `Run.children_burn_parent` is the same for every draft of a session.

The parent goes by its identifier and by the quantity of the coin, and what is known about the token
is not looked at (`Run.unknown_parent_sample`).
-/

set_option autoImplicit false

namespace SimpleLedger
namespace Wallet

namespace Backend

/-- Whether a token is known as the group of an NFT. -/
def IsGroup (b : Backend) (id : TokenId) : Prop :=
  ∃ token, b.descriptor? id = some token ∧ token.kind = .nftGroup

/-- What a draft takes away of a token and does not send on. -/
def lost (b : Backend) (d : Draft) (id : TokenId) : Nat :=
  Selection.heldBy ((b.consumed d).filter (·.tokenId = id)) - d.sends id

/-- A draft burns a coin with tokens, and no other one. -/
structure Burns (b : Backend) (d : Draft) (c : TokenCoin) : Prop where
  mem : c ∈ b.tokens
  /-- The coin comes first.  What pays for the transaction carries no tokens. -/
  inputs : ∃ plain : List Coin, plain.Subperm b.plain ∧ d.inputs = c.coin :: plain
  creates : ∃ m, d.message? = some m ∧ m.kind.isGenesis = true ∧ m.tokenType = .nftChild
  sends : ∀ id, d.sends id = 0
  consumed : (b.coins.map Coin.outpoint).Nodup → b.consumed d = [c]

theorem Burns.lost_eq {b : Backend} {d : Draft} {c : TokenCoin} (h : b.Burns d c)
    (hb : (b.coins.map Coin.outpoint).Nodup) (id : TokenId) :
    b.lost d id = if c.tokenId = id then c.quantity.toNat else 0 := by
  rw [lost, h.sends, Nat.sub_zero, h.consumed hb, List.filter_cons, List.filter_nil]
  by_cases hid : c.tokenId = id
  · rw [if_pos (decide_eq_true hid), if_pos hid, Selection.heldBy_cons]
    rfl
  · rw [if_neg (by rwa [decide_eq_true_eq]), if_neg hid]
    rfl

end Backend

variable {config : Config} {b b' : Backend}

/-- **The draft of a child** burns a unit of the parent. -/
theorem Action.Moves.exists_burns {a : Action} {d : Draft} {picked : List TokenCoin}
    {plain : List Coin} {m : Message} {parent : TokenId} (h : a.Moves picked m)
    (ha : a.burns parent = true) (hinputs : d.inputs = picked.map TokenCoin.coin ++ plain)
    (hpicked : picked.Subperm b.tokens) (hplain : plain.Subperm b.plain)
    (hm : d.message? = some m) : ∃ c, b.Burns d c ∧ c.tokenId = parent ∧ c.quantity = 1 := by
  cases h with
  | send hnone => exact absurd ha (by rw [hnone]; exact Bool.false_ne_true)
  | create hnone => exact absurd ha (by rw [hnone]; exact Bool.false_ne_true)
  | @createChild c hburns hkind htype hpicked_eq hone =>
    subst hpicked_eq
    rw [hburns, decide_eq_true_eq] at ha
    refine ⟨c, ?_, ha, hone⟩
    constructor
    case mem => exact List.singleton_subperm_iff.1 hpicked
    case inputs => exact ⟨plain, hplain, hinputs⟩
    case creates => exact ⟨m, hm, hkind, htype⟩
    case sends =>
      intro id
      rw [Draft.sends, hm]
      exact m.sends_of_isGenesis hkind id
    case consumed =>
      exact fun hb => List.perm_singleton.1 (consumed_perm hb hinputs hpicked hplain)

/-- **Children cost a unit of their parent.**  Each action that succeeds in a session has recorded
one transaction, and each transaction comes from one of them.  That of a child burns a coin that
holds a single unit of the designated parent.  The coin comes first, and what else goes in carries
no tokens.  If no two coins share an outpoint, that unit is all that is lost, and if the parent is
known as a group, nothing but a group loses a unit. -/
theorem Run.children_burn_parent {finished : List (Action × Outcome)}
    (h : Run config b finished b') :
    ∃ done : List (Action × Draft), b'.recorded = b.recorded ++ done.map Prod.snd ∧
      ((finished.filter fun p => p.2.isOk).map Prod.fst).Perm (done.map Prod.fst) ∧
      ∀ (parent : TokenId) (ticker name documentUrl : String) (receiver : Address) (d : Draft),
        (Action.createChild parent ticker name documentUrl receiver, d) ∈ done →
        (∃ c, b.Burns d c ∧ c.tokenId = parent ∧ c.quantity = 1) ∧
        ((b.coins.map Coin.outpoint).Nodup →
          (∀ id, b.lost d id = if parent = id then 1 else 0) ∧
          -- what is known about tokens may change during a session, so it is that of any backend
          ∀ s : Backend, s.IsGroup parent → ∀ id, 0 < b.lost d id → s.IsGroup id) := by
  obtain ⟨done, hdone, hperm⟩ := h.exists_broadcasts
  refine ⟨done, hdone.recorded_eq, hperm, fun parent ticker name documentUrl receiver d hd => ?_⟩
  obtain ⟨picked, plain, m, hinputs, hpicked, hplain, hm, hmoves⟩ := hdone.exists_moves _ hd
  obtain ⟨c, hburns, rfl, hone⟩ :=
    hmoves.exists_burns (decide_eq_true rfl) hinputs hpicked hplain hm
  refine ⟨⟨c, hburns, rfl, hone⟩, fun hnodup => ?_⟩
  have hlost : ∀ id, b.lost d id = if c.tokenId = id then 1 else 0 := by
    intro id
    rw [hburns.lost_eq hnodup, hone]
    rfl
  refine ⟨hlost, fun s hs id hid => ?_⟩
  rw [hlost] at hid
  split at hid
  next heq => exact heq ▸ hs
  next => exact absurd hid (Nat.lt_irrefl 0)

/-- The parent is a group, and of its two coins the one with a single unit is burned. -/
theorem Run.children_burn_parent_sample :
    ∃ after d, Run {} sampleBackend [(sampleChild, .ok "tx1")] after ∧ after.recorded = [d] ∧
      sampleBackend.IsGroup Assembly.sampleToken ∧
      (∃ c, sampleBackend.Burns d c ∧ c.tokenId = Assembly.sampleToken ∧ c.quantity = 1) ∧
      (∀ id, sampleBackend.lost d id = if Assembly.sampleToken = id then 1 else 0) ∧
      ∀ id, 0 < sampleBackend.lost d id → sampleBackend.IsGroup id := by
  have hrun : Run {} sampleBackend _ _ := Run.start.act sampleChild
  have hchild : (sampleBackend.act {} sampleChild).1 = .ok "tx1" := by cbv
  rw [hchild, List.nil_append] at hrun
  have hgroup : sampleBackend.IsGroup Assembly.sampleToken :=
    ⟨⟨Assembly.sampleToken, "G", "", 0, .nftGroup⟩, by decide +kernel, rfl⟩
  obtain ⟨done, hrecorded, hperm, hburn⟩ := hrun.children_burn_parent
  have hdone : done.map Prod.fst = [sampleChild] := List.perm_singleton.1 hperm.symm
  obtain ⟨⟨a, d⟩, rfl⟩ := List.length_eq_one_iff.1 (by rw [← List.length_map, hdone]; rfl)
  obtain rfl : a = sampleChild := List.singleton_inj.1 hdone
  obtain ⟨hburns, hlost⟩ := hburn _ _ _ _ _ d (List.mem_singleton_self _)
  obtain ⟨hlost, hgroups⟩ := hlost (by decide +kernel)
  exact ⟨_, d, hrun, hrecorded, hgroup, hburns, hlost, hgroups _ hgroup⟩

/-- The sample with other descriptors. -/
def sampleKnowing (descriptors : List (TokenId × Descriptor)) : Backend :=
  { sampleBackend with descriptors }

/-- Nothing is known about the parent, or it is known as a fungible token, and a unit of it is
burned for the child as well. -/
theorem Run.unknown_parent_sample :
    ((sampleKnowing []).descriptor? Assembly.sampleToken = none ∧
      ∃ after, Run {} (sampleKnowing []) [(sampleChild, .ok "tx1")] after ∧
        after.holds Assembly.sampleToken = 40) ∧
    ∃ token : Descriptor, token.kind = .fungible ∧
      (sampleKnowing [(Assembly.sampleToken, token)]).descriptor? Assembly.sampleToken =
        some token ∧
      (sampleKnowing [(Assembly.sampleToken, token)]).holds Assembly.sampleToken = 41 ∧
      ∃ after, Run {} (sampleKnowing [(Assembly.sampleToken, token)])
          [(sampleChild, .ok "tx1")] after ∧
        after.holds Assembly.sampleToken = 40 := by
  have hrun : ∀ ds, ((sampleKnowing ds).act {} sampleChild).1 = .ok "tx1" →
      Run {} (sampleKnowing ds) [(sampleChild, .ok "tx1")]
        ((sampleKnowing ds).act {} sampleChild).2 := by
    intro ds hok
    have h : Run {} (sampleKnowing ds) _ _ := Run.start.act sampleChild
    rwa [hok, List.nil_append] at h
  constructor
  · exact ⟨rfl, _, hrun [] (by cbv), by cbv⟩
  · let token : Descriptor := ⟨Assembly.sampleToken, "F", "", 0, .fungible⟩
    exact ⟨token, rfl, by decide +kernel, by decide +kernel, _,
      hrun [(Assembly.sampleToken, token)] (by cbv), by cbv⟩

end Wallet
end SimpleLedger
