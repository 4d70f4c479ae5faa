import SimpleLedger.Proofs.Wallet.Run

/-!
# All or nothing

An action on its own records its draft and takes the coins away, or it leaves the ledger as it was.
Nothing that it meets on the way makes a difference: a call that fails, a check, a selection that
comes short, or a transaction that cannot be built.

* `Action.inquiries` are the calls that an action makes before it broadcasts.
* `Ends` says what an act may come to, with every call that it made in the log.  `Atomic` acts come
  to nothing else, and the lemmas on them follow the words in which actions are written.
* `Action.ends`: every action comes to one of these ends.
* `Action.all_or_nothing`: what that is for the ledger, the log and the lock.
-/

set_option autoImplicit false

namespace SimpleLedger
namespace Wallet

/-! ## Calls -/

/-- What a payment asks for before it broadcasts. -/
def paymentInquiries (config : Config) (token : TokenId) : List Call :=
  [.tokenCoins token config.allowUnconfirmed, .plainCoins config.allowUnconfirmed,
    .tokenChangeAddress, .changeAddress]

/-- What an action asks for before it broadcasts.  A payment spends coins of the token that the
descriptor names, which need not be the one that was looked up. -/
def Action.inquiries (config : Config) (b : Backend) : Action → List Call
  | .send id .. | .sendNft id _ | .sendMany id _ =>
    .tokenDescriptor id ::
      paymentInquiries config (((b.descriptor? id).map Descriptor.tokenId).getD id)
  | .create .. => [.plainCoins config.allowUnconfirmed, .changeAddress]
  | .createChild parent .. =>
    [.tokenCoins parent config.allowUnconfirmed, .plainCoins config.allowUnconfirmed,
      .changeAddress]

/-- The names of the calls of an action, in their order. -/
def Action.sequence : Action → List CallName
  | .send .. | .sendNft .. | .sendMany .. =>
    [.tokenDescriptor, .tokenCoins, .plainCoins, .tokenChangeAddress, .changeAddress, .broadcast]
  | .create .. => [.plainCoins, .changeAddress, .broadcast]
  | .createChild .. => [.tokenCoins, .plainCoins, .changeAddress, .broadcast]

theorem Action.map_name_inquiries (config : Config) (b : Backend) (a : Action) (d : Draft) :
    (a.inquiries config b ++ [Call.broadcast d]).map Call.name = a.sequence := by
  cases a <;> rfl

namespace Backend

/-- Whether a call succeeds. -/
def Answers (b : Backend) (c : Call) : Prop := ∃ a, (b.answer c).1 = .ok a

/-- The backend with more calls in its log. -/
def logged (b : Backend) (calls : List Call) : Backend := { b with log := b.log ++ calls }

theorem logged_nil (b : Backend) : b.logged [] = b := by
  rw [logged, List.append_nil]

theorem logged_logged (b : Backend) (cs ds : List Call) :
    (b.logged cs).logged ds = b.logged (cs ++ ds) := by
  rw [logged, logged, logged, List.append_assoc]

theorem logged_answer {c : Call} (hc : c.name ≠ .broadcast) (b : Backend) :
    (b.answer c).2 = b.logged [c] := by
  rw [answer]
  dsimp only
  split
  · rfl
  · cases c <;> first | rfl | exact absurd rfl hc

theorem answers_logged {b : Backend} {cs : List Call} {c : Call} (h : (b.logged cs).Answers c) :
    b.Answers c := by
  obtain ⟨a, ha⟩ := h
  rw [← answer_unlogged] at ha
  exact ⟨a, (b.answer_unlogged c).symm.trans ha⟩

/-- A broadcast is logged, and then it fails or the draft is recorded. -/
theorem answer_broadcast_eq (b : Backend) (d : Draft) :
    (∃ e, b.answer (.broadcast d) = (.error e, b.logged [.broadcast d])) ∨
      b.answer (.broadcast d) =
        (.ok ((b.logged [.broadcast d]).record d).lastTxId,
          (b.logged [.broadcast d]).record d) := by
  rw [answer]
  dsimp only
  split
  next f _ => exact .inl ⟨.backend f.reason, rfl⟩
  next => exact .inr rfl

end Backend

/-! ## Ends -/

/-- What an act may come to that asks for `cs` before it broadcasts a planned draft. -/
inductive Ends (plan : Draft → Prop) (cs : List Call) (b : Backend) : Outcome × Backend → Prop
  | gaveUp (e : WalletError) (made : List Call) (h : made <+: cs) :
      Ends plan cs b (.error e, b.logged made)
  | refused (e : WalletError) (d : Draft) (hd : plan d) (h : ∀ c ∈ cs, b.Answers c) :
      Ends plan cs b (.error e, b.logged (cs ++ [.broadcast d]))
  | recorded (d : Draft) (hd : plan d) (h : ∀ c ∈ cs, b.Answers c) :
      Ends plan cs b (.ok ((b.logged (cs ++ [.broadcast d])).record d).lastTxId,
        (b.logged (cs ++ [.broadcast d])).record d)

/-- Comes to such an end on its own, whatever has been logged before. -/
def Atomic (plan : Draft → Prop) (cs : List Call) (b : Backend) (p : Procedure Outcome) : Prop :=
  ∀ b' : Backend, b'.unlogged = b.unlogged → Ends plan cs b' (p.run b')

section

variable {plan : Draft → Prop} {cs : List Call} {b : Backend}

theorem Ends.giveUp (e : WalletError) : Ends plan cs b (.error e, b) := by
  have h : Ends plan cs b (.error e, b.logged []) := .gaveUp e [] List.nil_prefix
  rwa [b.logged_nil] at h

/-- One more call before all the others. -/
theorem Ends.cons {c : Call} {x : Outcome × Backend} (hc : b.Answers c)
    (h : Ends plan cs (b.logged [c]) x) : Ends plan (c :: cs) b x := by
  cases h with
  | gaveUp e made h =>
    rw [b.logged_logged]
    exact .gaveUp e (c :: made) (List.cons_prefix_cons.2 ⟨rfl, h⟩)
  | refused e d hd h =>
    rw [b.logged_logged]
    exact .refused e d hd (List.forall_mem_cons.2 ⟨hc, fun c hc => Backend.answers_logged (h c hc)⟩)
  | recorded d hd h =>
    rw [b.logged_logged]
    exact .recorded d hd (List.forall_mem_cons.2 ⟨hc, fun c hc => Backend.answers_logged (h c hc)⟩)

/-! ## Acts that are atomic -/

theorem Procedure.run_bind {α β : Type} (p : Procedure α) (f : α → Procedure β) (b : Backend) :
    (p.bind f).run b = (f (p.run b).1).run (p.run b).2 := by
  induction p generalizing b with
  | done a => rfl
  | call c next ih => exact ih (b.answer c).1 (b.answer c).2
  | pause next ih => exact ih b
  | lock next ih => exact ih b
  | unlock next ih => exact ih b

theorem atomic_giveUp (e : WalletError) : Atomic plan cs b (.done (.error e)) :=
  fun _ _ => .giveUp e

/-- A call of which the error is passed on. -/
theorem atomic_call {c : Call} {next : Except WalletError c.Answer → Procedure Outcome}
    (hc : c.name ≠ .broadcast) (herror : ∀ e, next (.error e) = .done (.error e))
    (h : Atomic plan cs b (next (.ok (b.perform c).1))) :
    Atomic plan (c :: cs) b (.call c next) := by
  intro b' hb
  have hanswer : (b'.answer c).1 = (b.answer c).1 := by
    rw [← Backend.answer_unlogged, hb, Backend.answer_unlogged]
  change Ends plan (c :: cs) b' ((next (b'.answer c).1).run (b'.answer c).2)
  rw [Backend.logged_answer hc b']
  cases hr : (b'.answer c).1 with
  | error e =>
    rw [herror]
    exact .gaveUp e [c] (List.prefix_append [c] cs)
  | ok a =>
    rw [Backend.eq_perform_of_answer (hanswer.symm.trans hr)]
    exact .cons ⟨a, hr⟩ (h (b'.logged [c]) hb)

theorem atomic_ask {c : Call} {f : c.Answer → Act TxId} (hc : c.name ≠ .broadcast)
    (h : Atomic plan cs b (f (b.perform c).1).run) :
    Atomic plan (c :: cs) b (Act.ask c >>= f).run :=
  atomic_call hc (fun _ => rfl) h

theorem atomic_build {α : Type} {result : Except Error α} {f : α → Act TxId}
    (h : ∀ built, result = .ok built → Atomic plan cs b (f built).run) :
    Atomic plan cs b (Act.build result >>= f).run := by
  intro b' hb
  cases result with
  | error e => exact .giveUp _
  | ok built => exact h built rfl b' hb

theorem atomic_broadcast {d : Draft} (hd : plan d) :
    Atomic plan [] b (Act.broadcast d).run := by
  intro b' _
  change Ends plan [] b' (b'.answer (.broadcast d))
  rcases b'.answer_broadcast_eq d with ⟨e, h⟩ | h
  · rw [h]
    exact .refused e d hd nofun
  · rw [h]
    exact .recorded d hd nofun

theorem atomic_locked {act : Act TxId} (h : Atomic plan cs b act.run) :
    Atomic plan cs b (Act.locked act).run := by
  intro b' hb
  change Ends plan cs b' ((act.run.bind fun r => .unlock (.done r)).run b')
  rw [Procedure.run_bind]
  exact h b' hb

theorem atomic_descriptor {id : TokenId} {f : Descriptor → Act TxId}
    (h : ∀ token, b.descriptor? id = some token → Atomic plan cs b (f token).run) :
    Atomic plan (.tokenDescriptor id :: cs) b (descriptor id >>= f).run := by
  refine atomic_call nofun (fun _ => rfl) ?_
  cases hfound : (b.perform (.tokenDescriptor id)).1 with
  | none => exact atomic_giveUp _
  | some token => exact h token hfound

theorem atomic_checkNetwork {config : Config} {addresses : List Address} {act : Act TxId}
    (h : (∀ a ∈ addresses, onNetwork config.network a = true) →
      Atomic plan cs b act.run) :
    Atomic plan cs b (checkNetwork config addresses >>= fun _ => act).run := by
  rw [checkNetwork]
  cases hfind : addresses.find? fun a => !onNetwork config.network a with
  | some a => exact atomic_giveUp _
  | none =>
    refine h fun a ha => ?_
    simpa using List.find?_eq_none.1 hfind a ha

/-! ## Actions -/

theorem atomic_pay {config : Config} {token : Descriptor} {recipients : List (Address × UInt64)}
    (hplan : ∀ d, PlansPayment config b token recipients d → plan d) :
    Atomic plan (paymentInquiries config token.tokenId) b (pay config token recipients).run := by
  rw [pay]
  split
  · exact atomic_giveUp _
  next hne =>
  refine atomic_checkNetwork fun hnetwork => atomic_locked ?_
  refine atomic_ask (by rintro ⟨⟩) ?_
  refine atomic_ask (by rintro ⟨⟩) ?_
  refine atomic_ask (by rintro ⟨⟩) ?_
  refine atomic_ask (by rintro ⟨⟩) ?_
  refine atomic_build fun built hbuilt => atomic_broadcast (hplan _ ?_)
  exact .intro (fun h0 => hne (by rw [h0]; rfl)) hnetwork hbuilt

end

theorem Action.atomic_procedure (config : Config) (b : Backend) (a : Action) :
    Atomic (a.Plans config b) (a.inquiries config b) b (a.procedure config) := by
  -- the calls of a payment are those for the token that was found
  have hpayment : ∀ {id : TokenId} {token : Descriptor}, b.descriptor? id = some token →
      paymentInquiries config (((b.descriptor? id).map Descriptor.tokenId).getD id) =
        paymentInquiries config token.tokenId := by
    intro id token htoken
    rw [htoken]
    rfl
  cases a with
  | send id amount recipient =>
    refine atomic_descriptor fun token htoken => ?_
    rw [hpayment htoken]
    split
    next => exact atomic_giveUp _
    next raw hraw => exact atomic_pay fun d h => .send htoken hraw h
  | sendNft id recipient =>
    refine atomic_descriptor fun token htoken => ?_
    rw [hpayment htoken]
    split
    next hnft => exact atomic_pay fun d h => .sendNft htoken hnft h
    next => exact atomic_giveUp _
  | sendMany id recipients =>
    refine atomic_descriptor fun token htoken => ?_
    rw [hpayment htoken]
    exact atomic_pay fun d h => .sendMany htoken h
  | create tokenType g receiver batonReceiver =>
    refine atomic_checkNetwork fun hnetwork => atomic_locked ?_
    refine atomic_ask (by rintro ⟨⟩) ?_
    refine atomic_ask (by rintro ⟨⟩) ?_
    exact atomic_build fun built hbuilt => atomic_broadcast (.create hnetwork hbuilt)
  | createChild parent ticker name documentUrl receiver =>
    refine atomic_checkNetwork fun hnetwork => atomic_locked ?_
    refine atomic_ask (by rintro ⟨⟩) ?_
    refine atomic_ask (by rintro ⟨⟩) ?_
    refine atomic_ask (by rintro ⟨⟩) ?_
    exact atomic_build fun built hbuilt => atomic_broadcast (.createChild hnetwork hbuilt)

/-- **Every action** comes to one of these ends. -/
theorem Action.ends (config : Config) (b : Backend) (a : Action) :
    Ends (a.Plans config b) (a.inquiries config b) b (b.act config a) :=
  a.atomic_procedure config b b rfl

theorem Action.broadcast_notMem_inquiries (config : Config) (b : Backend) (a : Action) (d : Draft) :
    .broadcast d ∉ a.inquiries config b := by
  cases a <;> simp [inquiries, paymentInquiries]

/-- **All or nothing.**  An action that runs from a free lock comes to an end and leaves the lock
free.  If it fails, the coins and the recorded drafts are as they were, and if it succeeds, one
draft was recorded, the coins that it spends are gone, and no others.  The calls that it makes are a
beginning of its sequence of calls.  It broadcasts only what it planned, after every other call of
the sequence was made and answered. -/
theorem Action.all_or_nothing (config : Config) (b : Backend) (a : Action) :
    ∃ (steps : Nat) (r : Outcome) (after : Backend) (made : List Call),
      b.act config a = (r, after) ∧
      (Machine.start b [a.procedure config]).exec (List.replicate steps 0) =
        ⟨after, none, [.done r]⟩ ∧
      (match r with
        | .error _ => after.tokenCoins = b.tokenCoins ∧ after.plainCoins = b.plainCoins ∧
            after.recorded = b.recorded
        | .ok id => ∃ d, .broadcast d ∈ made ∧ after.recorded = b.recorded ++ [d] ∧
            id = s!"tx{after.recorded.length}" ∧
            after.tokenCoins =
              b.tokenCoins.filter (fun h => !d.spent.contains h.coin.coin.outpoint) ∧
            after.plainCoins =
              b.plainCoins.filter (fun h => !d.spent.contains h.coin.outpoint)) ∧
      after.log = b.log ++ made ∧ made.map Call.name <+: a.sequence ∧
      (∃ d, made <+: a.inquiries config b ++ [.broadcast d]) ∧
      ∀ d, .broadcast d ∈ made → made = a.inquiries config b ++ [.broadcast d] ∧
        (∀ c ∈ a.inquiries config b, b.Answers c) ∧ a.Plans config b d := by
  obtain ⟨steps, hsteps⟩ := Machine.exists_exec_eq_run config b a
  change _ = (⟨(b.act config a).2, none, [.done (b.act config a).1]⟩ : Machine Outcome) at hsteps
  have hends := a.ends config b
  generalize b.act config a = x at hsteps hends ⊢
  have hnames : ∀ {made : List Call} {d : Draft},
      made <+: a.inquiries config b ++ [.broadcast d] → made.map Call.name <+: a.sequence := by
    intro made d h
    rw [← a.map_name_inquiries config b d]
    exact h.map Call.name
  have hlast : ∀ {d d' : Draft}, .broadcast d ∈ a.inquiries config b ++ [.broadcast d'] →
      d = d' := by
    intro d d' h
    rcases List.mem_append.1 h with h | h
    · exact absurd h (a.broadcast_notMem_inquiries config b d)
    · cases List.mem_singleton.1 h
      rfl
  cases hends with
  | gaveUp e made h =>
    have hmade := h.trans (List.prefix_append _ [.broadcast ⟨[], []⟩])
    refine ⟨steps, _, _, made, rfl, hsteps, ⟨rfl, rfl, rfl⟩, rfl, hnames hmade, ⟨_, hmade⟩,
      fun d hd => ?_⟩
    exact absurd (h.subset hd) (a.broadcast_notMem_inquiries config b d)
  | refused e d hd h =>
    refine ⟨steps, _, _, _, rfl, hsteps, ⟨rfl, rfl, rfl⟩, rfl, hnames List.prefix_rfl,
      ⟨d, List.prefix_rfl⟩, fun d' hd' => ?_⟩
    cases hlast hd'
    exact ⟨rfl, h, hd⟩
  | recorded d hd h =>
    refine ⟨steps, _, _, _, rfl, hsteps,
      ⟨d, List.mem_append_right _ (List.mem_singleton_self _), rfl, rfl, rfl, rfl⟩, rfl,
      hnames List.prefix_rfl, ⟨d, List.prefix_rfl⟩, fun d' hd' => ?_⟩
    cases hlast hd'
    exact ⟨rfl, h, hd⟩

end Wallet
end SimpleLedger
