import SimpleLedger.Proofs.Assembly.Creation
import SimpleLedger.Proofs.Wallet.Conservation
import SimpleLedger.Proofs.Wallet.Delivery
import SimpleLedger.Proofs.Wallet.Invariant

/-!
# The policy of a wallet

Two settings of a wallet are promises: its network, and whether it may spend outputs that are not
confirmed yet.  Every action has to keep them, for each address that it is given and each time that
it asks for coins.

* `Action.KeepsPolicy` is what the policy says about a draft: whom it pays, and what it spends.
* `Action.Plans.offered`: of a backend, an action only sees the coins that it may spend.
* `Action.Plans.keepsPolicy`: what is planned keeps the policy.
* `TurnsAway` is for procedures that never come to the lock: `Action.turnsAway` says so of an action
  with an address of another network, and `TurnsAway.advance` what its steps may do.
* `Machine.keeps_policy` puts them together for actions side by side.
-/

set_option autoImplicit false

namespace SimpleLedger
namespace Wallet

theorem onNetwork_eq_true_iff {network : Network} {a : Address} :
    onNetwork network a = true ↔ ∀ n, a.network? = some n → n = network := by
  rw [onNetwork]
  split
  next n hn => simp [hn]
  next hn => simp [hn]

/-! ## Coins that are offered -/

namespace Backend

/-- All coins, with or without tokens, and whether they still wait to be confirmed. -/
def holdings (b : Backend) : List (Holding Coin) :=
  b.tokenCoins.map (fun h => ⟨h.coin.coin, h.unconfirmed⟩) ++ b.plainCoins

/-- The backend without the coins that may not be spent. -/
def offered (b : Backend) (unconfirmed : Bool) : Backend :=
  { b with
    tokenCoins := b.tokenCoins.filter fun h => unconfirmed || !h.unconfirmed
    plainCoins := b.plainCoins.filter fun h => unconfirmed || !h.unconfirmed }

theorem map_coin_holdings (b : Backend) : b.holdings.map Holding.coin = b.coins := by
  rw [holdings, List.map_append, List.map_map, coins, tokens, List.map_map]
  rfl

theorem Remains.holdings {b b' : Backend} (h : Remains b b') :
    b'.holdings.Sublist b.holdings :=
  (h.tokenCoins.map _).append h.plainCoins

theorem spendable_filter {α : Type} (unconfirmed : Bool) (holdings : List (Holding α)) :
    spendable unconfirmed (holdings.filter fun h => unconfirmed || !h.unconfirmed) =
      spendable unconfirmed holdings := by
  rw [spendable, List.filter_filter, spendable]
  simp only [Bool.and_self]

theorem tokenCoinsOf_offered (b : Backend) (id : TokenId) (unconfirmed : Bool) :
    (b.offered unconfirmed).tokenCoinsOf id unconfirmed = b.tokenCoinsOf id unconfirmed := by
  rw [tokenCoinsOf, offered, spendable_filter, tokenCoinsOf]

/-- Without leave to spend other coins, none but confirmed ones are offered. -/
theorem exists_of_mem_offered {b : Backend} {c : Coin} (h : c ∈ (b.offered false).coins) :
    ∃ g ∈ b.holdings, g.unconfirmed = false ∧ g.coin = c := by
  rw [coins, tokens, plain, offered, List.map_map, List.mem_append, List.mem_map, List.mem_map] at h
  rcases h with ⟨g, hg, rfl⟩ | ⟨g, hg, rfl⟩
  · obtain ⟨hg, hconfirmed⟩ := List.mem_filter.1 hg
    exact ⟨⟨g.coin.coin, g.unconfirmed⟩, List.mem_append_left _ (List.mem_map.2 ⟨g, hg, rfl⟩),
      by simpa using hconfirmed, rfl⟩
  · obtain ⟨hg, hconfirmed⟩ := List.mem_filter.1 hg
    exact ⟨g, List.mem_append_right _ hg, by simpa using hconfirmed, rfl⟩

end Backend

section

variable {config : Config} {b b' : Backend} {a : Action} {d : Draft}

theorem PlansPayment.offered {token : Descriptor} {recipients : List (Address × UInt64)}
    (h : PlansPayment config b token recipients d) :
    PlansPayment config (b.offered config.allowUnconfirmed) token recipients d := by
  obtain ⟨hne, hnetwork, hbuilt⟩ := h
  refine .intro hne hnetwork ?_
  rw [Backend.tokenCoinsOf_offered, Backend.offered, Backend.spendable_filter]
  exact hbuilt

/-- **An action sees no other coins** than those that it may spend. -/
theorem Action.Plans.offered (h : a.Plans config b d) :
    a.Plans config (b.offered config.allowUnconfirmed) d := by
  cases h with
  | send htoken hraw h => exact .send htoken hraw h.offered
  | sendNft htoken hnft h => exact .sendNft htoken hnft h.offered
  | sendMany htoken h => exact .sendMany htoken h.offered
  | create hnetwork hbuilt =>
    refine .create hnetwork ?_
    rw [Backend.offered, Backend.spendable_filter]
    exact hbuilt
  | createChild hnetwork hbuilt =>
    refine .createChild hnetwork ?_
    rw [Backend.tokenCoinsOf_offered, Backend.offered, Backend.spendable_filter]
    exact hbuilt

/-! ## What is planned -/

/-- Apart from change in tokens and in currency, a draft pays the receivers and nobody else. -/
def PaysOnly (config : Config) (b : Backend) (receivers : List Address) (d : Draft) : Prop :=
  ∃ (script : String) (tokens currency : List Output),
    d.outputs = .message script :: receivers.map (.payTo · config.fees.dustLimit) ++ tokens ++
      currency ∧
    (tokens = [] ∨ tokens = [.payTo b.tokenChange config.fees.dustLimit]) ∧
    (currency = [] ∨ ∃ v, currency = [.payTo b.change v])

/-- What the policy of a wallet says about the draft of an action. -/
structure Action.KeepsPolicy (config : Config) (b : Backend) (a : Action) (d : Draft) : Prop where
  outputs : PaysOnly config b a.payees d
  /-- Whoever is named has no address that carries the prefix of another network. -/
  network : ∀ r ∈ a.payees, ∀ n, r.network? = some n → n = config.network
  /-- Without leave to do so, nothing is spent that waits to be confirmed. -/
  confirmed : config.allowUnconfirmed = false → (b.coins.map Coin.outpoint).Nodup →
    ∀ h ∈ b.holdings, h.unconfirmed = true → h.coin.outpoint ∉ d.spent

theorem PlansPayment.paysOnly {token : Descriptor} {recipients : List (Address × UInt64)}
    (h : PlansPayment config b token recipients d) :
    PaysOnly config b (recipients.map Prod.fst) d := by
  obtain ⟨extra, hdelivers⟩ := h.exists_delivers
  obtain ⟨script, rest, houtputs, hrest⟩ := hdelivers.outputs
  rw [List.map_append, ← List.cons_append] at houtputs
  refine ⟨script, _, rest, houtputs, ?_, hrest⟩
  cases extra with
  | none => exact .inl rfl
  | some q => exact .inr rfl

theorem paysOnly_of_create {t : TokenType} {g : Genesis} {message : Bytes}
    {parent : Option Coin} {plainCoins : List Coin} {receivers : List Address}
    {built : Assembled GenesisSummary} (hcount : receivers.length ≤ 2)
    (h : Assembly.create config.fees t g message parent plainCoins receivers b.change =
      .ok built) : PaysOnly config b receivers built.draft := by
  obtain ⟨leftover, hcreates⟩ := Assembly.creates_of_create (by omega) h
  refine ⟨Hex.encode message, [], Assembly.changeOutputs config.fees leftover b.change, ?_,
    .inl rfl, ?_⟩
  · rw [List.append_nil]
    exact hcreates.outputs_eq
  · rw [Assembly.changeOutputs]
    split
    · exact .inr ⟨_, rfl⟩
    · exact .inl rfl

theorem Action.Plans.paysOnly (h : a.Plans config b d) : PaysOnly config b a.payees d := by
  cases h with
  | send _ _ h => exact h.paysOnly
  | sendNft _ _ h => exact h.paysOnly
  | sendMany _ h => exact h.paysOnly
  | @create _ _ receiver batonReceiver _ _ hbuilt =>
    obtain ⟨-, g, message, -, -, hcreate⟩ := Assembly.genesis_eq_ok hbuilt
    have hcount : (receiver :: batonReceiver.toList).length ≤ 2 := by cases batonReceiver <;> simp
    exact paysOnly_of_create hcount hcreate
  | createChild _ hbuilt =>
    obtain ⟨_, _, -, -, hcreate⟩ := Assembly.childGenesis_eq_ok hbuilt
    exact paysOnly_of_create (Nat.le_succ 1) hcreate

theorem PlansPayment.onNetwork_recipients {token : Descriptor}
    {recipients : List (Address × UInt64)} (h : PlansPayment config b token recipients d) :
    ∀ r ∈ recipients.map Prod.fst, onNetwork config.network r = true := by
  obtain ⟨-, hnetwork, -⟩ := h
  exact hnetwork

theorem Action.Plans.onNetwork_payees (h : a.Plans config b d) :
    ∀ r ∈ a.payees, onNetwork config.network r = true := by
  cases h with
  | send _ _ h => exact h.onNetwork_recipients
  | sendNft _ _ h => exact h.onNetwork_recipients
  | sendMany _ h => exact h.onNetwork_recipients
  | create hnetwork _ => exact hnetwork
  | createChild hnetwork _ => exact hnetwork

/-- Nothing is spent but what is offered. -/
theorem Action.Plans.notMem_spent (h : a.Plans config b' d) (hb : b.Remains b')
    (hconfirmed : config.allowUnconfirmed = false) (hnodup : (b.coins.map Coin.outpoint).Nodup)
    {g : Holding Coin} (hg : g ∈ b.holdings) (hwaits : g.unconfirmed = true) :
    g.coin.outpoint ∉ d.spent := by
  intro hspent
  obtain ⟨c, hc, houtpoint⟩ := List.mem_map.1 hspent
  have hoffered := h.offered
  rw [hconfirmed] at hoffered
  obtain ⟨g', hg', hconfirmed', rfl⟩ :=
    Backend.exists_of_mem_offered (hoffered.inputs_subperm.subset hc)
  -- two coins of one outpoint would be one, and it cannot be both
  rw [← b.map_coin_holdings, List.map_map] at hnodup
  have heq := List.inj_on_of_nodup_map hnodup (hb.holdings.subset hg') hg houtpoint
  rw [heq, hwaits] at hconfirmed'
  cases hconfirmed'

/-- **What is planned keeps the policy**, whatever has become of the backend before. -/
theorem Action.Plans.keepsPolicy (h : a.Plans config b' d) (hb : b.Remains b') :
    a.KeepsPolicy config b d := by
  have htokens := congrArg Backend.tokenChange hb.settings
  have hchange := congrArg Backend.change hb.settings
  change b'.tokenChange = b.tokenChange at htokens
  change b'.change = b.change at hchange
  constructor
  case outputs =>
    rw [PaysOnly, ← htokens, ← hchange]
    exact h.paysOnly
  case network => exact fun r hr => onNetwork_eq_true_iff.1 (h.onNetwork_payees r hr)
  case confirmed => exact fun hconfirmed hnodup g => h.notMem_spent hb hconfirmed hnodup

end

/-! ## What is turned away -/

/-- Asks about tokens at most, and fails. -/
inductive TurnsAway : Procedure Outcome → Prop
  | ask {id : TokenId} {next : Except WalletError (Option Descriptor) → Procedure Outcome}
      (h : ∀ r, TurnsAway (next r)) : TurnsAway (.call (.tokenDescriptor id) next)
  | giveUp (e : WalletError) : TurnsAway (.done (.error e))

/-- A step of such a procedure does not touch the lock, and a call about a token is all that it
makes. -/
theorem TurnsAway.advance {p : Procedure Outcome} (h : TurnsAway p) (i : Nat)
    (holder : Option Nat) (b : Backend) :
    TurnsAway (Machine.advance i holder b p).1 ∧ (Machine.advance i holder b p).2.1 = holder ∧
      ∃ ids : List TokenId,
        (Machine.advance i holder b p).2.2 = b.logged (ids.map .tokenDescriptor) := by
  cases h with
  | @ask id next h => exact ⟨h _, rfl, [id], Backend.logged_answer (by rintro ⟨⟩) b⟩
  | giveUp e => exact ⟨.giveUp e, rfl, [], b.logged_nil.symm⟩

section

variable {config : Config}

theorem turnsAway_descriptor {id : TokenId} {f : Descriptor → Act TxId}
    (h : ∀ token, TurnsAway (f token).run) : TurnsAway (descriptor id >>= f).run := by
  refine .ask fun r => ?_
  rcases r with e | found
  · exact .giveUp e
  · cases found with
    | none => exact .giveUp _
    | some token => exact h token

theorem turnsAway_checkNetwork {addresses : List Address} {f : Unit → Act TxId} {r : Address}
    (hr : r ∈ addresses) (hnetwork : onNetwork config.network r = false) :
    TurnsAway (checkNetwork config addresses >>= f).run := by
  rw [checkNetwork]
  cases hfind : addresses.find? fun a => !onNetwork config.network a with
  | some a => exact .giveUp _
  | none =>
    have hnone := List.find?_eq_none.1 hfind r hr
    rw [hnetwork] at hnone
    exact absurd rfl hnone

theorem turnsAway_pay {token : Descriptor} {recipients : List (Address × UInt64)} {r : Address}
    (hr : r ∈ recipients.map Prod.fst) (hnetwork : onNetwork config.network r = false) :
    TurnsAway (pay config token recipients).run := by
  rw [pay]
  split
  · exact .giveUp _
  · exact turnsAway_checkNetwork hr hnetwork

/-- **An address of another network** turns the whole action away. -/
theorem Action.turnsAway {a : Action} {r : Address} (hr : r ∈ a.payees)
    (hnetwork : onNetwork config.network r = false) : TurnsAway (a.procedure config) := by
  cases a with
  | send id amount recipient =>
    refine turnsAway_descriptor fun token => ?_
    split
    · exact .giveUp _
    · exact turnsAway_pay hr hnetwork
  | sendNft id recipient =>
    refine turnsAway_descriptor fun token => ?_
    split
    · exact turnsAway_pay hr hnetwork
    · exact .giveUp _
  | sendMany id recipients => exact turnsAway_descriptor fun token => turnsAway_pay hr hnetwork
  | create tokenType g receiver batonReceiver => exact turnsAway_checkNetwork hr hnetwork
  | createChild parent ticker name documentUrl receiver =>
    exact turnsAway_checkNetwork hr hnetwork

/-- It stays turned away while others take their steps. -/
theorem Machine.turnsAway_of_exec {b : Backend} {actions : List Action} {schedule : List Nat}
    {i : Nat} {a : Action} {r : Address} {p : Procedure Outcome} (ha : actions[i]? = some a)
    (hr : r ∈ a.payees) (hnetwork : onNetwork config.network r = false)
    (hp : ((start b (actions.map (Action.procedure config))).exec schedule).procedures[i]? =
      some p) : TurnsAway p := by
  have hstart : ∀ (j : Nat) (q : Procedure Outcome),
      (start b (actions.map (Action.procedure config))).procedures[j]? = some q →
        j = i → TurnsAway q := by
    rintro j q hq rfl
    obtain ⟨a', ha', rfl⟩ := exists_of_start hq
    obtain rfl : a = a' := Option.some.inj (ha.symm.trans ha')
    exact Action.turnsAway hr hnetwork
  have hadvance : ∀ (j : Nat) (holder : Option Nat) (b : Backend) (q : Procedure Outcome), True →
      (j = i → TurnsAway q) → (j = i → TurnsAway (advance j holder b q).1) ∧ True :=
    fun j holder b q _ hq => ⟨fun hj => ((hq hj).advance j holder b).1, trivial⟩
  exact (exec_invariant hadvance trivial hstart schedule).2 i p hp rfl

end

/-! ## Actions side by side -/

/-- **The policy holds in every run.**  Let actions run side by side, with their steps in any order.
Every draft that is recorded is that of one of the actions and keeps the policy: apart from change
it pays those whom the action names, none of whom has an address of another network, and if it must
not, it spends nothing that waits to be confirmed.  An action that names an address of another
network takes no step but to ask about a token or to fail.  So it looks at no coins, comes to no
lock and broadcasts nothing, and it can only end in an error. -/
theorem Machine.keeps_policy (config : Config) (b : Backend) (actions : List Action)
    (schedule : List Nat) :
    let m := (start b (actions.map (Action.procedure config))).exec schedule
    (∃ done : List (Action × Draft), m.backend.recorded = b.recorded ++ done.map Prod.snd ∧
      ∀ p ∈ done, p.1 ∈ actions ∧ p.1.KeepsPolicy config b p.2) ∧
    ∀ (i : Nat) (a : Action) (r : Address) (n : Network), actions[i]? = some a → r ∈ a.payees →
      r.network? = some n → n ≠ config.network →
        (m.step i).holder = m.holder ∧
        (∃ ids : List TokenId, (m.step i).backend = m.backend.logged (ids.map .tokenDescriptor)) ∧
        ∀ outcome, m.procedures[i]? = some (.done outcome) → ∃ e, outcome = .error e := by
  intro m
  obtain ⟨-, -, done, hrecorded, hdone⟩ := exec_planned config b actions schedule
  refine ⟨⟨done, hrecorded, fun p hp => ?_⟩, fun i a r n ha hr hn hne => ?_⟩
  · obtain ⟨hmem, b', hb', hplans⟩ := hdone p hp
    exact ⟨hmem, hplans.keepsPolicy hb'⟩
  · have hnetwork : onNetwork config.network r = false := by
      rw [Bool.eq_false_iff, ne_eq, onNetwork_eq_true_iff]
      exact fun h => hne (h n hn)
    have haway : ∀ p, m.procedures[i]? = some p → TurnsAway p :=
      fun p hp => turnsAway_of_exec ha hr hnetwork hp
    cases hp : m.procedures[i]? with
    | none =>
      have hstep : m.step i = m := by rw [step, hp]
      rw [hstep]
      exact ⟨rfl, ⟨[], m.backend.logged_nil.symm⟩, fun _ hdone => by cases hdone⟩
    | some p =>
      obtain ⟨-, hholder, hlogged⟩ := (haway p hp).advance i m.holder m.backend
      rw [step_eq hp rfl]
      refine ⟨hholder, hlogged, fun outcome houtcome => ?_⟩
      cases haway _ (hp.trans houtcome) with
      | giveUp e => exact ⟨e, rfl⟩

/-- One of the recipients has a test address. -/
def sampleStray : Action :=
  .sendMany Assembly.sampleToken [(⟨"a"⟩, 1), (⟨"bchtest:b"⟩, 1)]

/-- The payment takes all its steps, or the stray one takes a step. -/
theorem Machine.keeps_policy_sample :
    (∃ p : Action × Draft,
      ((start sampleBackend ([sampleSend, sampleStray].map (Action.procedure {}))).exec
        (List.replicate 10 0)).backend.recorded = [p.2] ∧ p.1.KeepsPolicy {} sampleBackend p.2) ∧
    ∃ e, ((start sampleBackend ([sampleSend, sampleStray].map (Action.procedure {}))).exec
      [1]).procedures[1]? = some (.done (.error e)) := by
  constructor
  · obtain ⟨⟨done, hrecorded, hdone⟩, -⟩ :=
      keeps_policy {} sampleBackend [sampleSend, sampleStray] (List.replicate 10 0)
    have hlength : ((start sampleBackend ([sampleSend, sampleStray].map (Action.procedure {}))).exec
        (List.replicate 10 0)).backend.recorded.length = 1 := by cbv
    have hnone : sampleBackend.recorded = [] := rfl
    rw [hnone, List.nil_append] at hrecorded
    rw [hrecorded, List.length_map, List.length_eq_one_iff] at hlength
    obtain ⟨p, rfl⟩ := hlength
    exact ⟨p, hrecorded, (hdone p (List.mem_singleton_self p)).2⟩
  · obtain ⟨-, haway⟩ := keeps_policy {} sampleBackend [sampleSend, sampleStray] [1]
    have hended : ((start sampleBackend ([sampleSend, sampleStray].map (Action.procedure {}))).exec
        [1]).procedures[1]? =
          some (.done (.error (.networkMismatch ⟨"bchtest:b"⟩ .mainnet))) := by cbv
    obtain ⟨-, -, herror⟩ := haway 1 sampleStray ⟨"bchtest:b"⟩ .testnet rfl (by decide)
      (by decide +kernel) (by decide)
    obtain ⟨e, he⟩ := herror _ hended
    exact ⟨e, he ▸ hended⟩

end Wallet
end SimpleLedger
