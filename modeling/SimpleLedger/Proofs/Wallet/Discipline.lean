import SimpleLedger.Proofs.Wallet.Plan
import SimpleLedger.Wallet.Interleaving

/-!
# What procedures may do with the lock

Every action keeps to the same discipline: without the lock it asks about tokens only, and with the
lock it looks at coins, broadcasts at most one draft that it plans, and gives the lock back at once.

* `Free` and `Held` are this discipline for procedures without and with the lock, and
  `Action.free_procedure` says that every action keeps to it.
* `Stage` is where a procedure stands while others run.  `Advanced` is what its next step may do to
  the backend: nothing but a planned broadcast.  `Stage.advance` says that it does.
-/

set_option autoImplicit false

namespace SimpleLedger
namespace Wallet

section

variable (plan : Backend → Draft → Prop)

/-- Holds the lock while the backend is `b`.  A plan for `b` is all that may be broadcast. -/
inductive Held (b : Backend) : Procedure Outcome → Prop
  | ask {c : Call} {next : Except WalletError c.Answer → Procedure Outcome}
      (hc : c.name ≠ .broadcast) (h : Held b (next (b.answer c).1)) : Held b (.call c next)
  | pause {next : Procedure Outcome} (h : Held b next) : Held b (.pause next)
  | broadcast {d : Draft} {next : Outcome → Procedure Outcome} (hd : plan b d)
      (h : ∀ r, next r = .unlock (.done r)) : Held b (.call (.broadcast d) next)
  | giveUp (e : WalletError) : Held b (.unlock (.done (.error e)))

/-- Has not come to the lock yet.  Of the backend only the settings `s` are known, since others
may change the rest. -/
inductive Free (s : Backend) : Procedure Outcome → Prop
  | ask {id : TokenId} {next : Except WalletError (Option Descriptor) → Procedure Outcome}
      (h : Free s (next (s.answer (.tokenDescriptor id)).1)) :
      Free s (.call (.tokenDescriptor id) next)
  | lock {next : Procedure Outcome}
      (h : ∀ b : Backend, b.settings = s → Held plan b.unlogged next) : Free s (.lock next)
  | giveUp (e : WalletError) : Free s (.done (.error e))

/-- An act during which the lock is held. -/
def Inside (b : Backend) (act : Act TxId) : Prop :=
  Held plan b (act.run.bind fun r => .unlock (.done r))

end

/-! ## Acts that keep to the discipline -/

section

variable {α : Type} {plan : Backend → Draft → Prop} {b s : Backend}

theorem inside_ask {c : Call} {f : c.Answer → Act TxId} (hc : c.name ≠ .broadcast)
    (h : Inside plan b (f (b.perform c).1)) : Inside plan b (Act.ask c >>= f) := by
  refine .ask hc ?_
  cases hr : (b.answer c).1 with
  | error e => exact .giveUp e
  | ok a =>
    rw [← Backend.eq_perform_of_answer hr] at h
    exact h

theorem inside_build {result : Except Error α} {f : α → Act TxId}
    (h : ∀ built, result = .ok built → Inside plan b (f built)) :
    Inside plan b (Act.build result >>= f) := by
  refine .pause ?_
  cases result with
  | error e => exact .giveUp _
  | ok built => exact h built rfl

theorem inside_broadcast {d : Draft} (h : plan b d) : Inside plan b (Act.broadcast d) :=
  .pause (.broadcast h fun _ => rfl)

theorem free_locked {act : Act TxId}
    (h : ∀ b : Backend, b.settings = s → Inside plan b.unlogged act) :
    Free plan s (Act.locked act).run :=
  .lock h

theorem free_descriptor {id : TokenId} {f : Descriptor → Act TxId}
    (h : ∀ token, s.descriptor? id = some token → Free plan s (f token).run) :
    Free plan s (descriptor id >>= f).run := by
  refine .ask ?_
  cases hr : (s.answer (.tokenDescriptor id)).1 with
  | error e => exact .giveUp e
  | ok found =>
    have hfound := Backend.eq_perform_of_answer hr
    cases found with
    | none => exact .giveUp _
    | some token => exact h token hfound.symm

theorem free_checkNetwork {config : Config} {addresses : List Address} {act : Act TxId}
    (h : (∀ a ∈ addresses, onNetwork config.network a = true) → Free plan s act.run) :
    Free plan s (checkNetwork config addresses >>= fun _ => act).run := by
  rw [checkNetwork]
  cases hfind : addresses.find? fun a => !onNetwork config.network a with
  | some a => exact .giveUp _
  | none =>
    refine h fun a ha => ?_
    simpa using List.find?_eq_none.1 hfind a ha

/-! ## Actions -/

theorem free_pay {config : Config} {token : Descriptor} {recipients : List (Address × UInt64)}
    (hplan : ∀ b : Backend, b.settings = s → ∀ d,
      PlansPayment config b.unlogged token recipients d → plan b.unlogged d) :
    Free plan s (pay config token recipients).run := by
  rw [pay]
  split
  · exact .giveUp _
  next hne =>
  refine free_checkNetwork fun hnetwork => free_locked fun b hb => ?_
  refine inside_ask nofun (inside_ask nofun (inside_ask nofun (inside_ask nofun ?_)))
  refine inside_build fun built hbuilt => inside_broadcast (hplan b hb _ ?_)
  exact .intro (fun h0 => hne (by rw [h0]; rfl)) hnetwork hbuilt

/-- **Every action keeps to the discipline.** -/
theorem Action.free_procedure (config : Config) (s : Backend) (a : Action) :
    Free (a.Plans config) s.settings (a.procedure config) := by
  have hdescriptor : ∀ {b : Backend} {id : TokenId} {token : Descriptor},
      b.settings = s.settings → s.settings.descriptor? id = some token →
        b.unlogged.descriptor? id = some token := by
    intro b id token hb htoken
    rw [← hb] at htoken
    exact htoken
  cases a with
  | send id amount recipient =>
    refine free_descriptor fun token htoken => ?_
    split
    next => exact .giveUp _
    next raw hraw =>
      exact free_pay fun b hb d h => .send (hdescriptor hb htoken) hraw h
  | sendNft id recipient =>
    refine free_descriptor fun token htoken => ?_
    split
    next hnft => exact free_pay fun b hb d h => .sendNft (hdescriptor hb htoken) hnft h
    next => exact .giveUp _
  | sendMany id recipients =>
    refine free_descriptor fun token htoken => ?_
    exact free_pay fun b hb d h => .sendMany (hdescriptor hb htoken) h
  | create tokenType g receiver batonReceiver =>
    refine free_checkNetwork fun hnetwork => free_locked fun b hb => ?_
    refine inside_ask nofun (inside_ask nofun ?_)
    exact inside_build fun built hbuilt => inside_broadcast (.create hnetwork hbuilt)
  | createChild parent ticker name documentUrl receiver =>
    refine free_checkNetwork fun hnetwork => free_locked fun b hb => ?_
    refine inside_ask nofun (inside_ask nofun (inside_ask nofun ?_))
    exact inside_build fun built hbuilt => inside_broadcast (.createChild hnetwork hbuilt)

end

/-! ## Steps -/

/-- Whether a procedure has broadcast its draft: nothing is left but to give the lock back. -/
def Procedure.committed : Procedure Outcome → Bool
  | .done (.ok _) | .unlock (.done (.ok _)) => true
  | _ => false

/-- Where procedure `i` stands, given who holds the lock. -/
inductive Stage (plan : Backend → Draft → Prop) (b : Backend) (holder : Option Nat) (i : Nat) :
    Procedure Outcome → Prop
  | free {p : Procedure Outcome} (hi : holder ≠ some i) (h : Free plan b.settings p) :
      Stage plan b holder i p
  | held {p : Procedure Outcome} (hi : holder = some i) (h : Held plan b.unlogged p) :
      Stage plan b holder i p
  | leaving (hi : holder = some i) (r : Outcome) : Stage plan b holder i (.unlock (.done r))
  | done (hi : holder ≠ some i) (r : Outcome) : Stage plan b holder i (.done r)

section

variable {plan : Backend → Draft → Prop} {b b' : Backend} {holder holder' : Option Nat} {i : Nat}
  {p : Procedure Outcome}

theorem Held.committed_eq_false (h : Held plan b p) : p.committed = false := by
  cases h <;> rfl

theorem Free.committed_eq_false (h : Free plan b p) : p.committed = false := by
  cases h <;> rfl

/-- What a step of procedure `i` does: the procedure keeps to the discipline, nobody else's hold on
the lock changes, and either the ledger stays as it is or the planned draft is recorded. -/
structure Advanced (plan : Backend → Draft → Prop) (i : Nat) (b b' : Backend)
    (holder holder' : Option Nat) (p p' : Procedure Outcome) : Prop where
  stage : Stage plan b' holder' i p'
  others : ∀ j, j ≠ i → (holder' = some j ↔ holder = some j)
  effect : (b'.unlogged = b.unlogged ∧ p'.committed = p.committed) ∨
    holder = some i ∧ ∃ d, plan b.unlogged d ∧ b'.unlogged = b.unlogged.record d ∧
      p.committed = false ∧ p'.committed = true

/-- Whoever gives the lock back had it. -/
theorem none_eq_some_iff_of_ne (hi : holder = some i) (j : Nat) (hj : j ≠ i) :
    none = some j ↔ holder = some j :=
  iff_of_false nofun fun h => hj (Option.some.inj (h.symm.trans hi))

theorem Free.advance (h : Free plan b.settings p) (hi : holder ≠ some i)
    {p' : Procedure Outcome} (hstep : Machine.advance i holder b p = (p', holder', b')) :
    Advanced plan i b b' holder holder' p p' := by
  cases h with
  | @ask id next h =>
    cases hstep
    have hname : (Call.tokenDescriptor id).name ≠ .broadcast := nofun
    have hb := Backend.unlogged_answer hname b
    rw [Backend.answer_settings] at h
    have hcommitted := h.committed_eq_false
    rw [← Backend.settings_eq_of_unlogged_eq hb] at h
    exact ⟨.free hi h, fun _ _ => Iff.rfl, .inl ⟨hb, hcommitted⟩⟩
  | lock h =>
    cases holder with
    | none =>
      cases hstep
      have hheld := h b rfl
      exact ⟨.held rfl hheld, fun j hj => iff_of_false (fun h' => hj (Option.some.inj h').symm)
        nofun, .inl ⟨rfl, hheld.committed_eq_false⟩⟩
    | some j =>
      cases hstep
      exact ⟨.free hi (.lock h), fun _ _ => Iff.rfl, .inl ⟨rfl, rfl⟩⟩
  | giveUp e =>
    cases hstep
    exact ⟨.done hi _, fun _ _ => Iff.rfl, .inl ⟨rfl, rfl⟩⟩

theorem Held.advance (h : Held plan b.unlogged p) (hi : holder = some i)
    {p' : Procedure Outcome} (hstep : Machine.advance i holder b p = (p', holder', b')) :
    Advanced plan i b b' holder holder' p p' := by
  cases h with
  | ask hc h =>
    cases hstep
    have hcommitted := h.committed_eq_false
    rw [Backend.answer_unlogged] at h hcommitted
    have hb := Backend.unlogged_answer hc b
    rw [← hb] at h
    exact ⟨.held hi h, fun _ _ => Iff.rfl, .inl ⟨hb, hcommitted⟩⟩
  | pause h =>
    cases hstep
    exact ⟨.held hi h, fun _ _ => Iff.rfl, .inl ⟨rfl, h.committed_eq_false⟩⟩
  | @broadcast d next hd h =>
    have hanswer := b.answer_broadcast d
    rw [Machine.advance] at hstep
    generalize b.answer (.broadcast d) = answer at hstep hanswer
    obtain ⟨r, after⟩ := answer
    cases hstep
    rw [h]
    refine ⟨.leaving hi r, fun _ _ => Iff.rfl, ?_⟩
    rcases hanswer with ⟨e, rfl, hb⟩ | ⟨id, rfl, hb⟩
    · exact .inl ⟨hb, rfl⟩
    · exact .inr ⟨hi, d, hd, hb, rfl, rfl⟩
  | giveUp e =>
    cases hstep
    exact ⟨.done (Option.some_ne_none i).symm _, none_eq_some_iff_of_ne hi, .inl ⟨rfl, rfl⟩⟩

/-- **Every step** keeps to the discipline, wherever the procedure stands. -/
theorem Stage.advance (h : Stage plan b holder i p) {p' : Procedure Outcome}
    (hstep : Machine.advance i holder b p = (p', holder', b')) :
    Advanced plan i b b' holder holder' p p' := by
  cases h with
  | free hi h => exact h.advance hi hstep
  | held hi h => exact h.advance hi hstep
  | leaving hi r =>
    cases hstep
    exact ⟨.done (Option.some_ne_none i).symm r, none_eq_some_iff_of_ne hi,
      .inl ⟨rfl, by cases r <;> rfl⟩⟩
  | done hi r =>
    cases hstep
    exact ⟨.done hi r, fun _ _ => Iff.rfl, .inl ⟨rfl, rfl⟩⟩

theorem Advanced.settings_eq {p' : Procedure Outcome}
    (h : Advanced plan i b b' holder holder' p p') : b'.settings = b.settings := by
  rcases h.effect with ⟨hb, -⟩ | ⟨-, d, -, hb, -⟩
  · exact Backend.settings_eq_of_unlogged_eq hb
  · rw [← Backend.settings_unlogged, hb, Backend.settings_record, Backend.settings_unlogged]

/-- A step of procedure `i` does not move procedure `j`, which has no plan for the ledger unless it
holds the lock itself. -/
theorem Stage.frame {other : Backend → Draft → Prop} {j : Nat} {p' q : Procedure Outcome}
    (h : Stage other b holder j q) (hj : j ≠ i) (hi : Advanced plan i b b' holder holder' p p') :
    Stage other b' holder' j q := by
  have hholder := hi.others j hj
  cases h with
  | free hfree h =>
    rw [← hi.settings_eq] at h
    exact .free (fun h' => hfree (hholder.1 h')) h
  | held hheld h =>
    rcases hi.effect with ⟨hb, -⟩ | ⟨hother, -⟩
    · rw [← hb] at h
      exact .held (hholder.2 hheld) h
    · exact absurd (Option.some.inj (hheld.symm.trans hother)) hj
  | leaving hheld r => exact .leaving (hholder.2 hheld) r
  | done hfree r => exact .done (fun h' => hfree (hholder.1 h')) r

end

end Wallet
end SimpleLedger
