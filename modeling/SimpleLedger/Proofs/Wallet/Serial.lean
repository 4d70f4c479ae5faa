import SimpleLedger.Proofs.Wallet.Atomic
import SimpleLedger.Proofs.Wallet.Conservation

/-!
# One after the other

However the steps of actions are mixed, what comes of it is what comes of the same actions one after
the other, in the order in which they took the lock.

* `Machine.lockOrder` is this order, and `Backend.actEach` runs actions one after the other.
* `Stepped` says what one step may do: go on towards the same end, take the lock, or give it back.
* `Machine.InOrder` is the invariant.  Whoever has the lock comes to the end that it would have come
  to right after those before it, and whoever has not come to the lock is not bound to anything yet.
* `Machine.exists_exec_done`: nobody waits for ever.
* `Machine.serialisable`: the whole run, and what remains of the actions that never took the lock.
-/

set_option autoImplicit false

namespace SimpleLedger
namespace Wallet

/-! ## What a procedure comes to -/

/-- What a procedure comes to on its own: its result, and the ledger that it leaves. -/
def Procedure.effect (p : Procedure Outcome) (b : Backend) : Outcome × Backend :=
  ((p.run b).1, (p.run b).2.unlogged)

theorem Procedure.effect_call (c : Call) (next : Except WalletError c.Answer → Procedure Outcome)
    (b : Backend) :
    (Procedure.call c next).effect b = (next (b.answer c).1).effect (b.answer c).2 := rfl

theorem Procedure.effect_unlogged (p : Procedure Outcome) (b : Backend) :
    p.effect b.unlogged = p.effect b := by
  induction p generalizing b with
  | done r => rfl
  | call c next ih =>
    rw [effect_call, effect_call, Backend.answer_unlogged, ← ih _ (b.unlogged.answer c).2,
      Backend.unlogged_answer_unlogged, ih]
  | pause next ih => exact ih b
  | lock next ih => exact ih b
  | unlock next ih => exact ih b

/-- The log makes no difference. -/
theorem Procedure.effect_congr (p : Procedure Outcome) {b b' : Backend}
    (h : b'.unlogged = b.unlogged) : p.effect b' = p.effect b := by
  rw [← p.effect_unlogged b', h, p.effect_unlogged]

theorem Procedure.settings_run (p : Procedure Outcome) (b : Backend) :
    (p.run b).2.settings = b.settings := by
  induction p generalizing b with
  | done r => rfl
  | call c next ih => exact (ih (b.answer c).1 (b.answer c).2).trans (b.settings_answer c)
  | pause next ih => exact ih b
  | lock next ih => exact ih b
  | unlock next ih => exact ih b

/-! ## Actions one after the other -/

/-- Runs actions one after the other. -/
def Backend.actEach (config : Config) : Backend → List Action → List Outcome × Backend
  | b, [] => ([], b)
  | b, a :: actions =>
    let (outcome, b) := b.act config a
    let (outcomes, b) := actEach config b actions
    (outcome :: outcomes, b)

/-- What is left once the actions with these indices have run. -/
def Backend.afterEach (config : Config) (b : Backend) (actions : List Action) (order : List Nat) :
    Backend :=
  (b.actEach config (order.filterMap (actions[·]?))).2

section

variable {config : Config} {b : Backend} {actions : List Action} {order : List Nat} {i : Nat}
  {a : Action}

theorem Backend.actEach_concat (b : Backend) (actions : List Action) (a : Action) :
    (b.actEach config (actions ++ [a])).2 = ((b.actEach config actions).2.act config a).2 := by
  induction actions generalizing b with
  | nil => rfl
  | cons first actions ih => exact ih (b.act config first).2

theorem Backend.afterEach_concat (ha : actions[i]? = some a) :
    b.afterEach config actions (order ++ [i]) =
      ((b.afterEach config actions order).act config a).2 := by
  have hi : [i].filterMap (actions[·]?) = [a] := by rw [List.filterMap_cons_some ha]; rfl
  rw [afterEach, List.filterMap_append, hi, actEach_concat, ← afterEach]

end

/-! ## Steps -/

/-- What a step of procedure `i` comes to. -/
inductive Stepped (i : Nat) (b b' : Backend) :
    Option Nat → Option Nat → Procedure Outcome → Procedure Outcome → Prop
  /-- Without the lock it leaves the ledger alone, and it is bound to nothing but the settings. -/
  | goOn {holder : Option Nat} {p p' : Procedure Outcome} (h : p'.effect b' = p.effect b)
      (hdone : ∀ r, p = .done r → p' = .done r)
      (hfree : holder ≠ some i → b'.unlogged = b.unlogged ∧
        ∀ s : Backend, s.settings = b.settings → p'.effect s = p.effect s) :
      Stepped i b b' holder holder p p'
  | take {p : Procedure Outcome} (hb : b' = b) : Stepped i b b' none (some i) (.lock p) p
  | leave (hb : b' = b) (r : Outcome) :
      Stepped i b b' (some i) none (.unlock (.done r)) (.done r)

section

variable {plan : Backend → Draft → Prop} {b b' : Backend} {holder holder' : Option Nat} {i : Nat}
  {p p' : Procedure Outcome}

theorem Stepped.stay : Stepped i b b holder holder p p :=
  .goOn rfl (fun _ h => h) fun _ => ⟨rfl, fun _ _ => rfl⟩

theorem Free.stepped (h : Free plan b.settings p)
    (hstep : Machine.advance i holder b p = (p', holder', b')) :
    Stepped i b b' holder holder' p p' := by
  cases h with
  | @ask id next h =>
    cases hstep
    have hname : (Call.tokenDescriptor id).name ≠ .broadcast := nofun
    refine .goOn rfl nofun fun _ => ⟨Backend.unlogged_answer hname b, fun s hs => ?_⟩
    have hanswer : (s.answer (.tokenDescriptor id)).1 = (b.answer (.tokenDescriptor id)).1 := by
      rw [← Backend.answer_settings, hs, Backend.answer_settings]
    rw [Procedure.effect_call, hanswer]
    exact (Procedure.effect_congr _ (Backend.unlogged_answer hname s)).symm
  | lock h =>
    cases holder with
    | none =>
      cases hstep
      exact .take rfl
    | some j =>
      cases hstep
      exact .stay
  | giveUp e =>
    cases hstep
    exact .stay

theorem Held.stepped (h : Held plan b.unlogged p) (hi : holder = some i)
    (hstep : Machine.advance i holder b p = (p', holder', b')) :
    Stepped i b b' holder holder' p p' := by
  cases h with
  | ask =>
    cases hstep
    exact .goOn rfl nofun fun hfree => absurd hi hfree
  | pause =>
    cases hstep
    exact .goOn rfl nofun fun hfree => absurd hi hfree
  | broadcast =>
    cases hstep
    exact .goOn rfl nofun fun hfree => absurd hi hfree
  | giveUp e =>
    cases hstep
    rw [hi]
    exact .leave rfl _

/-- **Every step** is one of these, wherever the procedure stands. -/
theorem Stage.stepped (h : Stage plan b holder i p)
    (hstep : Machine.advance i holder b p = (p', holder', b')) :
    Stepped i b b' holder holder' p p' := by
  cases h with
  | free hi h => exact h.stepped hstep
  | held hi h => exact h.stepped hi hstep
  | leaving hi r =>
    cases hstep
    rw [hi]
    exact .leave rfl r
  | done hi r =>
    cases hstep
    exact .stay

end

namespace Machine

/-! ## The order of the lock -/

/-- Who takes the lock when procedure `i` takes a step. -/
def taker (m : Machine Outcome) (i : Nat) : List Nat :=
  match m.holder with
  | none => (m.step i).holder.toList
  | some _ => []

/-- Those who take the lock, in their order. -/
def lockOrder (m : Machine Outcome) : List Nat → List Nat
  | [] => []
  | i :: schedule => m.taker i ++ (m.step i).lockOrder schedule

variable {config : Config} {b : Backend} {actions : List Action} {order : List Nat}
  {m : Machine Outcome} {i : Nat} {a : Action} {p p' : Procedure Outcome} {b' : Backend}

theorem taker_of_holder (h : (m.step i).holder = m.holder) : m.taker i = [] := by
  unfold taker
  split
  next hm => rw [h, hm]; rfl
  next => rfl

/-! ## The invariant -/

/-- Where the procedure of action `i` stands in the order of the lock. -/
inductive Position (config : Config) (b : Backend) (actions : List Action) (order : List Nat)
    (m : Machine Outcome) (i : Nat) (a : Action) : Procedure Outcome → Prop
  /-- It could still begin on any ledger. -/
  | outside {p : Procedure Outcome} (hi : i ∉ order)
      (h : ∀ s : Backend, s.settings = b.settings → p.effect s = (a.procedure config).effect s) :
      Position config b actions order m i a p
  /-- It comes to the end that it would have come to after those before it. -/
  | inside {p : Procedure Outcome} {prior : List Nat} (hi : m.holder = some i)
      (horder : order = prior ++ [i])
      (h : p.effect m.backend =
        (a.procedure config).effect (b.afterEach config actions prior)) :
      Position config b actions order m i a p
  | finished {prior : List Nat} (hi : m.holder ≠ some i) (horder : prior ++ [i] <+: order) :
      Position config b actions order m i a
        (.done ((b.afterEach config actions prior).act config a).1)

/-- The lock was taken in this order, and nothing else mattered. -/
structure InOrder (config : Config) (b : Backend) (actions : List Action) (order : List Nat)
    (m : Machine Outcome) : Prop where
  disciplined : Disciplined config actions m
  nodup : order.Nodup
  lt_length : ∀ i ∈ order, i < actions.length
  settings_eq : m.backend.settings = b.settings
  ledger_eq : m.holder = none →
    m.backend.unlogged = (b.afterEach config actions order).unlogged
  mem_of_holder : ∀ i, m.holder = some i → i ∈ order
  position : ∀ (i : Nat) (a : Action) (p : Procedure Outcome), actions[i]? = some a →
    m.procedures[i]? = some p → Position config b actions order m i a p

theorem inOrder_start (config : Config) (b : Backend) (actions : List Action) :
    InOrder config b actions [] (start b (actions.map (Action.procedure config))) where
  disciplined := disciplined_start config b actions
  nodup := .nil
  lt_length := nofun
  settings_eq := rfl
  ledger_eq _ := rfl
  mem_of_holder := nofun
  position i a p ha hp := by
    rw [start, List.getElem?_map, ha] at hp
    cases hp
    exact .outside List.not_mem_nil fun _ _ => rfl

/-! ## Steps keep the order -/

/-- As long as procedure `i` takes no step, it keeps its place, however the order goes on. -/
theorem Position.frame {m' : Machine Outcome} {order' : List Nat}
    (h : Position config b actions order m i a p) (hbegin : order <+: order')
    (hmem : i ∈ order' → i ∈ order) (hholder : m'.holder = some i ↔ m.holder = some i)
    (hheld : m.holder = some i → order' = order ∧ m'.backend.unlogged = m.backend.unlogged) :
    Position config b actions order' m' i a p := by
  cases h with
  | outside hnot h => exact .outside (fun hi => hnot (hmem hi)) h
  | inside hinside horder h =>
    obtain ⟨rfl, hb⟩ := hheld hinside
    exact .inside (hholder.2 hinside) horder ((Procedure.effect_congr p hb).trans h)
  | finished hleft hprior =>
    exact .finished (fun hinside => hleft (hholder.1 hinside)) (hprior.trans hbegin)

/-- Procedure `i` moves to its next place, and all others keep theirs. -/
theorem InOrder.position_set {m' : Machine Outcome} {order' : List Nat}
    (h : InOrder config b actions order m) (ha : actions[i]? = some a)
    (hp : m.procedures[i]? = some p) (hps : m'.procedures = m.procedures.set i p')
    (hi : Position config b actions order' m' i a p') (hbegin : order <+: order')
    (hframe : ∀ j, j ≠ i → (j ∈ order' → j ∈ order) ∧ (m'.holder = some j ↔ m.holder = some j) ∧
      (m.holder = some j → order' = order ∧ m'.backend.unlogged = m.backend.unlogged))
    (j : Nat) (a' : Action) (q : Procedure Outcome) (ha' : actions[j]? = some a')
    (hq : m'.procedures[j]? = some q) : Position config b actions order' m' j a' q := by
  rw [hps] at hq
  by_cases hj : i = j
  · subst hj
    rw [List.getElem?_set_self (List.getElem?_eq_some_iff.1 hp).1] at hq
    rw [ha] at ha'
    cases ha'
    cases hq
    exact hi
  · rw [List.getElem?_set_ne hj] at hq
    obtain ⟨hmem, hholder, hheld⟩ := hframe j (Ne.symm hj)
    exact (h.position j a' q ha' hq).frame hbegin hmem hholder hheld

theorem InOrder.goOn (h : InOrder config b actions order m) (ha : actions[i]? = some a)
    (hp : m.procedures[i]? = some p)
    (hm : Disciplined config actions ⟨b', m.holder, m.procedures.set i p'⟩)
    (hsettings : b'.settings = m.backend.settings) (heffect : p'.effect b' = p.effect m.backend)
    (hdone : ∀ r, p = .done r → p' = .done r)
    (hfree : m.holder ≠ some i → b'.unlogged = m.backend.unlogged ∧
      ∀ s : Backend, s.settings = m.backend.settings → p'.effect s = p.effect s) :
    InOrder config b actions order ⟨b', m.holder, m.procedures.set i p'⟩ := by
  -- without the lock it keeps its choices, and with it the end to which it is bound
  have hi : Position config b actions order ⟨b', m.holder, m.procedures.set i p'⟩ i a p' := by
    cases h.position i a p ha hp with
    | outside hnot h' =>
      obtain ⟨-, hfree⟩ := hfree fun hheld => hnot (h.mem_of_holder i hheld)
      exact .outside hnot fun s hs => (hfree s (hs.trans h.settings_eq.symm)).trans (h' s hs)
    | inside hheld horder h' => exact .inside hheld horder (heffect.trans h')
    | finished hleft hprior =>
      rw [hdone _ rfl]
      exact .finished hleft hprior
  have hothers : ∀ j, j ≠ i → m.holder = some j → b'.unlogged = m.backend.unlogged := by
    intro j hj hheld
    refine (hfree fun hi => hj ?_).1
    exact Option.some.inj (hheld.symm.trans hi)
  exact {
    disciplined := hm
    nodup := h.nodup
    lt_length := h.lt_length
    settings_eq := hsettings.trans h.settings_eq
    ledger_eq hnone := by
      rw [← h.ledger_eq hnone]
      exact (hfree fun hheld => nomatch hnone.symm.trans hheld).1
    mem_of_holder := h.mem_of_holder
    position := h.position_set ha hp rfl hi List.prefix_rfl fun j hj =>
      ⟨id, Iff.rfl, fun hheld => ⟨rfl, hothers j hj hheld⟩⟩ }

theorem InOrder.take (h : InOrder config b actions order m) (ha : actions[i]? = some a)
    (hp : m.procedures[i]? = some (.lock p')) (hnone : m.holder = none)
    (hm : Disciplined config actions ⟨m.backend, some i, m.procedures.set i p'⟩) :
    InOrder config b actions (order ++ [i]) ⟨m.backend, some i, m.procedures.set i p'⟩ := by
  obtain ⟨hnot, heffect⟩ : i ∉ order ∧ p'.effect m.backend =
      (a.procedure config).effect (b.afterEach config actions order) := by
    cases h.position i a _ ha hp with
    | outside hnot h' =>
      -- nobody else is inside, so the ledger is what those before it left
      have hledger := (a.procedure config).effect_congr (h.ledger_eq hnone)
      exact ⟨hnot, (h' m.backend h.settings_eq).trans hledger⟩
    | inside hheld => exact nomatch hnone.symm.trans hheld
  have hbegin := List.prefix_append order [i]
  refine {
    disciplined := hm
    nodup := h.nodup.append (List.nodup_singleton i) (List.disjoint_singleton.2 hnot)
    lt_length := ?lt_length
    settings_eq := h.settings_eq
    ledger_eq := nofun
    mem_of_holder := ?mem_of_holder
    position := h.position_set ha hp rfl (.inside rfl rfl heffect) hbegin ?frame }
  case lt_length =>
    intro j hj
    rcases List.mem_append.1 hj with hj | hj
    · exact h.lt_length j hj
    · rw [List.mem_singleton.1 hj]
      exact (List.getElem?_eq_some_iff.1 ha).1
  case mem_of_holder =>
    rintro j hj
    rw [← Option.some.inj hj]
    exact List.mem_append_right _ (List.mem_singleton_self i)
  case frame =>
    refine fun j hj => ⟨fun hmem => ?_, ?_, fun hheld => nomatch hnone.symm.trans hheld⟩
    · exact (List.mem_append.1 hmem).resolve_right fun h => hj (List.mem_singleton.1 h)
    · rw [hnone]
      exact iff_of_false (fun h => hj (Option.some.inj h).symm) nofun

theorem InOrder.leave {r : Outcome} (h : InOrder config b actions order m)
    (ha : actions[i]? = some a) (hp : m.procedures[i]? = some (.unlock (.done r)))
    (hheld : m.holder = some i)
    (hm : Disciplined config actions ⟨m.backend, none, m.procedures.set i (.done r)⟩) :
    InOrder config b actions order ⟨m.backend, none, m.procedures.set i (.done r)⟩ := by
  cases h.position i a _ ha hp with
  | outside hnot => exact absurd (h.mem_of_holder i hheld) hnot
  | @inside _ prior _ horder h' =>
    obtain ⟨hr, hb⟩ : r = ((b.afterEach config actions prior).act config a).1 ∧
        m.backend.unlogged = ((b.afterEach config actions prior).act config a).2.unlogged :=
      Prod.ext_iff.1 h'
    refine {
      disciplined := hm
      nodup := h.nodup
      lt_length := h.lt_length
      settings_eq := h.settings_eq
      ledger_eq := fun _ => ?ledger_eq
      mem_of_holder := nofun
      position := h.position_set ha hp rfl ?place List.prefix_rfl ?frame }
    case ledger_eq =>
      rw [horder, Backend.afterEach_concat ha]
      exact hb
    case place =>
      rw [hr]
      exact .finished nofun (horder ▸ List.prefix_rfl)
    case frame =>
      refine fun j hj => ⟨id, none_eq_some_iff_of_ne hheld j hj, fun hother => absurd ?_ hj⟩
      exact Option.some.inj (hother.symm.trans hheld)

theorem settings_advance (i : Nat) (holder : Option Nat) (b : Backend) (p : Procedure Outcome) :
    (advance i holder b p).2.2.settings = b.settings := by
  cases p with
  | call c next => exact b.settings_answer c
  | lock next => cases holder <;> rfl
  | _ => rfl

/-- **A step** keeps the order, and adds to it whoever takes the lock. -/
theorem InOrder.step (h : InOrder config b actions order m) (i : Nat) :
    InOrder config b actions (order ++ m.taker i) (m.step i) := by
  obtain ⟨hm, -⟩ := h.disciplined.step i
  cases hp : m.procedures[i]? with
  | none =>
    -- there is no such procedure, and nothing happens
    have hstep : m.step i = m := by rw [Machine.step, hp]
    rw [taker_of_holder (congrArg holder hstep), hstep, List.append_nil]
    exact h
  | some p =>
    obtain ⟨hi, -⟩ := List.getElem?_eq_some_iff.1 hp
    obtain ⟨a, ha⟩ : ∃ a, actions[i]? = some a :=
      ⟨_, List.getElem?_eq_getElem (h.disciplined.length_eq ▸ hi)⟩
    rcases hr : advance i m.holder m.backend p with ⟨p', holder', b'⟩
    have hstepped := (h.disciplined.stage i a p ha hp).stepped hr
    have hsettings := settings_advance i m.holder m.backend p
    rw [hr] at hsettings
    have hstep : m.step i = ⟨b', holder', m.procedures.set i p'⟩ := step_eq hp hr
    rw [hstep] at hm
    generalize hholder : m.holder = holder at hstepped
    cases hstepped with
    | goOn heffect hdone hfree =>
      subst hholder
      rw [taker_of_holder (by rw [hstep]), hstep, List.append_nil]
      exact h.goOn ha hp hm hsettings heffect hdone hfree
    | take hb =>
      subst hb
      rw [taker, hholder, hstep]
      exact h.take ha hp hholder hm
    | leave hb r =>
      subst hb
      rw [taker, hholder, hstep, List.append_nil]
      exact h.leave ha hp hholder hm

/-- **A run** takes the lock in its order. -/
theorem InOrder.exec (h : InOrder config b actions order m) (schedule : List Nat) :
    InOrder config b actions (order ++ m.lockOrder schedule) (m.exec schedule) := by
  induction schedule generalizing order m with
  | nil =>
    rw [lockOrder, List.append_nil]
    exact h
  | cons i schedule ih =>
    rw [lockOrder, ← List.append_assoc]
    exact ih (h.step i)

/-! ## Getting to the end -/

theorem Disciplined.exists_stage (h : Disciplined config actions m) (hi : i < actions.length) :
    ∃ (a : Action) (p : Procedure Outcome), i < m.procedures.length ∧
      m.procedures[i]? = some p ∧ m = ⟨m.backend, m.holder, m.procedures.set i p⟩ ∧
      Stage (a.Plans config) m.backend m.holder i p := by
  have hlt : i < m.procedures.length := h.length_eq ▸ hi
  have hp := List.getElem?_eq_getElem hlt
  exact ⟨_, _, hlt, hp, by rw [List.set_getElem_self],
    h.stage i _ _ (List.getElem?_eq_getElem hi) hp⟩

/-- Whoever has the lock can give it back. -/
theorem InOrder.exists_exec_free (h : InOrder config b actions order m) :
    ∃ schedule, (m.exec schedule).holder = none := by
  cases hholder : m.holder with
  | none => exact ⟨[], hholder⟩
  | some i =>
    obtain ⟨a, p, hlt, -, hm, hstage⟩ :=
      h.disciplined.exists_stage (h.lt_length i (h.mem_of_holder i hholder))
    rw [hholder] at hm hstage
    rw [hm]
    cases hstage with
    | free hfree => exact absurd rfl hfree
    | held _ hheld =>
      obtain ⟨n, hn⟩ := exists_exec_eq_run_of_held hlt hheld rfl
      exact ⟨List.replicate n i, by rw [hn]⟩
    | leaving _ r => exact ⟨[i], by rw [Machine.exec, List.foldl_cons, step_set hlt]; rfl⟩
    | done hfree => exact absurd rfl hfree

/-- While nobody has the lock, any procedure can come to its end. -/
theorem InOrder.exists_exec_set_done (h : InOrder config b actions order m)
    (hholder : m.holder = none) (hi : i < actions.length) :
    ∃ schedule r, (m.exec schedule).holder = none ∧
      (m.exec schedule).procedures = m.procedures.set i (.done r) := by
  obtain ⟨a, p, hlt, -, hm, hstage⟩ := h.disciplined.exists_stage hi
  rw [hholder] at hm hstage
  cases hstage with
  | free _ hfree =>
    obtain ⟨n, hn⟩ := exists_exec_eq_run_of_free hlt hfree rfl
    rw [← hm] at hn
    exact ⟨List.replicate n i, (p.run m.backend).1, by rw [hn], by rw [hn]⟩
  | held hheld => cases hheld
  | leaving hheld => cases hheld
  | done _ r => exact ⟨[], r, hholder, congrArg procedures hm⟩

theorem InOrder.exists_exec_done_lt (h : InOrder config b actions order m)
    (hholder : m.holder = none) {n : Nat} (hn : n ≤ actions.length) :
    ∃ schedule, (m.exec schedule).holder = none ∧
      ∀ i, i < n → ∃ r, (m.exec schedule).procedures[i]? = some (.done r) := by
  induction n with
  | zero => exact ⟨[], hholder, nofun⟩
  | succ n ih =>
    obtain ⟨schedule, hholder, hdone⟩ := ih (Nat.le_of_succ_le hn)
    obtain ⟨more, r, hholder, hset⟩ := (h.exec schedule).exists_exec_set_done hholder hn
    refine ⟨schedule ++ more, by rw [exec_append, hholder], fun i hi => ?_⟩
    rw [exec_append, hset, List.getElem?_set]
    split
    next hni =>
      have hlt : n < (m.exec schedule).procedures.length :=
        (h.exec schedule).disciplined.length_eq ▸ hn
      exact ⟨r, if_pos (hni ▸ hlt)⟩
    next hni => exact hdone i (by omega)

/-- **Nobody waits for ever.**  Whatever has happened, all can still come to their ends. -/
theorem InOrder.exists_exec_done (h : InOrder config b actions order m) :
    ∃ schedule, ∃ outcomes : List Outcome, (m.exec schedule).procedures = outcomes.map .done := by
  obtain ⟨schedule, hholder⟩ := h.exists_exec_free
  obtain ⟨more, -, hdone⟩ := (h.exec schedule).exists_exec_done_lt hholder Nat.le.refl
  rw [← exec_append, ← (h.exec (schedule ++ more)).disciplined.length_eq] at hdone
  have hrange : (m.exec (schedule ++ more)).procedures ∈
      Set.range (List.map (Procedure.done : Outcome → Procedure Outcome)) := by
    rw [Set.range_list_map]
    intro p hp
    obtain ⟨i, hi, rfl⟩ := List.mem_iff_getElem.1 hp
    obtain ⟨r, hr⟩ := hdone i hi
    exact ⟨r, ((List.getElem_eq_iff hi).2 hr).symm⟩
  obtain ⟨outcomes, houtcomes⟩ := hrange
  exact ⟨schedule ++ more, outcomes, houtcomes.symm⟩

/-! ## At the end -/

section

variable {outcomes : List Outcome} {r : Outcome}

theorem InOrder.length_outcomes (h : InOrder config b actions order m)
    (hdone : m.procedures = outcomes.map .done) : outcomes.length = actions.length := by
  rw [← h.disciplined.length_eq, hdone, List.length_map]

theorem InOrder.holder_of_done (h : InOrder config b actions order m)
    (hdone : m.procedures = outcomes.map .done) : m.holder = none := by
  cases hholder : m.holder with
  | none => rfl
  | some i =>
    obtain ⟨a, p, -, hp, -, hstage⟩ :=
      h.disciplined.exists_stage (h.lt_length i (h.mem_of_holder i hholder))
    obtain ⟨r, -, rfl⟩ := List.mem_map.1 (hdone ▸ List.mem_of_getElem? hp)
    cases hstage with
    | free hfree => exact absurd hholder hfree
    | held _ hheld => cases hheld
    | done hfree => exact absurd hholder hfree

theorem InOrder.position_of_done (h : InOrder config b actions order m)
    (hdone : m.procedures = outcomes.map .done) (ha : actions[i]? = some a)
    (hr : outcomes[i]? = some r) : Position config b actions order m i a (.done r) := by
  refine h.position i a _ ha ?_
  rw [hdone, List.getElem?_map, hr]
  rfl

/-- Who had the lock got what it would have got right after those before it. -/
theorem InOrder.outcome_of_mem {prior rest : List Nat} (h : InOrder config b actions order m)
    (hdone : m.procedures = outcomes.map .done) (horder : order = prior ++ i :: rest)
    (ha : actions[i]? = some a) (hr : outcomes[i]? = some r) :
    r = ((b.afterEach config actions prior).act config a).1 := by
  have hnodup := h.nodup
  have hi : i ∈ order := horder ▸ List.mem_append_right prior List.mem_cons_self
  cases h.position_of_done hdone ha hr with
  | outside hnot => exact absurd hi hnot
  | inside hheld => exact nomatch (h.holder_of_done hdone).symm.trans hheld
  | @finished prior' _ hbegin =>
    obtain ⟨rest', hrest'⟩ := hbegin
    rw [List.append_assoc, List.singleton_append, horder] at hrest'
    rw [horder, List.nodup_middle, List.nodup_cons, List.mem_append, not_or] at hnodup
    -- what comes before something that comes once is unique
    obtain ⟨hprior, -⟩ := (List.append_cons_inj_of_notMem hnodup.1.1 hnodup.1.2).1 hrest'.symm
    rw [hprior]

/-- Who never had the lock gets the same at any time, and leaves the ledger alone. -/
theorem InOrder.effect_of_notMem (h : InOrder config b actions order m)
    (hdone : m.procedures = outcomes.map .done) (hi : i ∉ order)
    (ha : actions[i]? = some a) (hr : outcomes[i]? = some r) {s : Backend}
    (hs : s.settings = b.settings) : (a.procedure config).effect s = (r, s.unlogged) := by
  cases h.position_of_done hdone ha hr with
  | outside _ h => exact (h s hs).symm
  | inside _ horder =>
    rw [horder] at hi
    exact absurd (List.mem_append_right _ (List.mem_singleton_self i)) hi
  | finished _ hbegin =>
    exact absurd (hbegin.subset (List.mem_append_right _ (List.mem_singleton_self i))) hi

theorem InOrder.exists_error_of_notMem (h : InOrder config b actions order m)
    (hdone : m.procedures = outcomes.map .done) (hi : i ∉ order)
    (ha : actions[i]? = some a) (hr : outcomes[i]? = some r) : ∃ e, r = .error e := by
  obtain ⟨houtcome, hledger⟩ : (b.act config a).1 = r ∧ (b.act config a).2.unlogged = b.unlogged :=
    Prod.ext_iff.1 (h.effect_of_notMem hdone hi ha hr rfl)
  have hends := a.ends config b
  generalize b.act config a = x at houtcome hledger hends
  cases hends with
  | gaveUp e => exact ⟨e, houtcome.symm⟩
  | refused e => exact ⟨e, houtcome.symm⟩
  | recorded d =>
    have hrecorded : b.recorded ++ [d] = b.recorded := congrArg Backend.recorded hledger
    exact absurd hrecorded (by simp)

/-- Whether the actions with these indices have these outcomes one after the other, and leave this
ledger. -/
def Replays (config : Config) (actions : List Action) (outcomes : List Outcome) (after : Backend)
    (order : List Nat) (s : Backend) : Prop :=
  (s.actEach config (order.filterMap (actions[·]?))).1 = order.filterMap (outcomes[·]?) ∧
    (s.actEach config (order.filterMap (actions[·]?))).2.unlogged = after.unlogged

theorem Replays.cons {s after : Backend} (ha : actions[i]? = some a)
    (hr : outcomes[i]? = some (s.act config a).1)
    (h : Replays config actions outcomes after order (s.act config a).2) :
    Replays config actions outcomes after (i :: order) s := by
  rw [Replays, List.filterMap_cons_some ha, List.filterMap_cons_some hr]
  exact ⟨congrArg _ h.1, h.2⟩

/-- Those who had the lock run in their order, and the others anywhere in between. -/
theorem InOrder.replays (h : InOrder config b actions order m)
    (hdone : m.procedures = outcomes.map .done) {rest all : List Nat} (hsub : rest.Sublist all) :
    ∀ {prior : List Nat} {s : Backend}, order = prior ++ rest → all.Nodup →
      (∀ i ∈ all, i < actions.length ∧ (i ∈ order → i ∈ rest)) →
      s.unlogged = (b.afterEach config actions prior).unlogged → s.settings = b.settings →
      Replays config actions outcomes (b.afterEach config actions order) all s := by
  have hget : ∀ {i}, i < actions.length →
      ∃ a r, actions[i]? = some a ∧ outcomes[i]? = some r := by
    intro i hi
    have hlt : i < outcomes.length := h.length_outcomes hdone ▸ hi
    exact ⟨_, _, List.getElem?_eq_getElem hi, List.getElem?_eq_getElem hlt⟩
  -- along the whole order: `prior` had the lock and have run, `rest` are still to come
  induction hsub with
  | slnil =>
    intro prior s horder _ _ hs _
    rw [List.append_nil] at horder
    exact ⟨rfl, horder ▸ hs⟩
  | @cons rest all i hsub ih =>
    intro prior s horder hnodup hall hs hsettings
    obtain ⟨hnot, hnodup⟩ := List.nodup_cons.1 hnodup
    obtain ⟨⟨hi, hmem⟩, hall⟩ := List.forall_mem_cons.1 hall
    obtain ⟨a, r, ha, hr⟩ := hget hi
    -- it never had the lock, so it may run here
    have hio : i ∉ order := fun hio => hnot (hsub.subset (hmem hio))
    obtain ⟨houtcome, hledger⟩ :
        (s.act config a).1 = r ∧ (s.act config a).2.unlogged = s.unlogged :=
      Prod.ext_iff.1 (h.effect_of_notMem hdone hio ha hr hsettings)
    have hsettings' := (Procedure.settings_run (a.procedure config) s).trans hsettings
    rw [← houtcome] at hr
    exact .cons ha hr (ih horder hnodup hall (hledger.trans hs) hsettings')
  | @cons_cons rest all i hsub ih =>
    intro prior s horder hnodup hall hs hsettings
    obtain ⟨hnot, hnodup⟩ := List.nodup_cons.1 hnodup
    obtain ⟨⟨hi, -⟩, hall⟩ := List.forall_mem_cons.1 hall
    obtain ⟨a, r, ha, hr⟩ := hget hi
    -- it had the lock right after `prior`
    obtain ⟨houtcome, hledger⟩ :
        (s.act config a).1 = ((b.afterEach config actions prior).act config a).1 ∧
          (s.act config a).2.unlogged =
            ((b.afterEach config actions prior).act config a).2.unlogged :=
      Prod.ext_iff.1 ((a.procedure config).effect_congr hs)
    rw [← Backend.afterEach_concat ha] at hledger
    have hsettings' := (Procedure.settings_run (a.procedure config) s).trans hsettings
    have hall' : ∀ j ∈ all, j < actions.length ∧ (j ∈ order → j ∈ rest) := by
      intro j hj
      obtain ⟨hlt, hmem⟩ := hall j hj
      refine ⟨hlt, fun hjo => (List.mem_cons.1 (hmem hjo)).resolve_left fun hji => hnot ?_⟩
      exact hji ▸ hj
    rw [h.outcome_of_mem hdone horder ha hr, ← houtcome] at hr
    rw [List.append_cons] at horder
    exact .cons ha hr (ih horder hnodup hall' hledger hsettings')

end

/-- **Serialisability.**  From any schedule the actions can be run to their ends.  Once they are
done, the ledger and their outcomes are those of the same actions one after the other, in any order
that has those which took the lock in the order in which they took it.  The others failed. -/
theorem serialisable (config : Config) (b : Backend) (actions : List Action)
    (schedule : List Nat) :
    let m := start b (actions.map (Action.procedure config))
    (∃ more, ∃ outcomes : List Outcome,
      (m.exec (schedule ++ more)).procedures = outcomes.map .done) ∧
    ∀ outcomes : List Outcome, (m.exec schedule).procedures = outcomes.map .done →
      (m.lockOrder schedule).Subperm (List.range actions.length) ∧
      (∀ i < actions.length, i ∉ m.lockOrder schedule → ∃ e, outcomes[i]? = some (.error e)) ∧
      ∀ order, order.Perm (List.range actions.length) → (m.lockOrder schedule).Sublist order →
        (b.actEach config (order.filterMap (actions[·]?))).1 = order.filterMap (outcomes[·]?) ∧
        (b.actEach config (order.filterMap (actions[·]?))).2.unlogged =
          (m.exec schedule).backend.unlogged := by
  intro m
  have h : InOrder config b actions (m.lockOrder schedule) (m.exec schedule) :=
    (inOrder_start config b actions).exec schedule
  refine ⟨?_, fun outcomes hdone => ⟨?_, fun i hi hnot => ?_, fun order hperm hsub => ?_⟩⟩
  · obtain ⟨more, outcomes, hdone⟩ := h.exists_exec_done
    exact ⟨more, outcomes, by rw [exec_append, hdone]⟩
  · exact h.nodup.subperm fun i hi => List.mem_range.2 (h.lt_length i hi)
  · have hlt : i < outcomes.length := h.length_outcomes hdone ▸ hi
    obtain ⟨e, he⟩ := h.exists_error_of_notMem hdone hnot (List.getElem?_eq_getElem hi)
      (List.getElem?_eq_getElem hlt)
    exact ⟨e, by rw [List.getElem?_eq_getElem hlt, he]⟩
  · have hreplays := h.replays hdone hsub (List.nil_append _).symm
      (hperm.nodup_iff.2 List.nodup_range)
      (fun i hi => ⟨List.mem_range.1 (hperm.subset hi), id⟩) rfl rfl
    exact ⟨hreplays.1, hreplays.2.trans (h.ledger_eq (h.holder_of_done hdone)).symm⟩

/-- Fails, because the token is a group. -/
def sampleRefused : Action := .sendNft Assembly.sampleToken ⟨"a"⟩

set_option maxRecDepth 2000 in
/-- The payment looks up its token first, but the child is created before it has the lock. -/
theorem serialisable_sample :
    let actions := [sampleSend, sampleChild, sampleRefused]
    let m := start sampleBackend (actions.map (Action.procedure {}))
    let schedule := [0, 1, 0, 2] ++ List.replicate 7 1 ++ List.replicate 9 0
    (m.exec schedule).procedures =
        [.ok "tx2", .ok "tx1", .error (.notAnNft Assembly.sampleToken)].map .done ∧
      m.lockOrder schedule = [1, 0] ∧
      (sampleBackend.actEach {} [sampleRefused, sampleChild, sampleSend]).1 =
        [.error (.notAnNft Assembly.sampleToken), .ok "tx1", .ok "tx2"] ∧
      (sampleBackend.actEach {} [sampleRefused, sampleChild, sampleSend]).2.unlogged =
        (m.exec schedule).backend.unlogged := by
  intro actions m schedule
  have hdone : (m.exec schedule).procedures =
      [.ok "tx2", .ok "tx1", .error (.notAnNft Assembly.sampleToken)].map .done := by cbv
  have horder : m.lockOrder schedule = [1, 0] := by cbv
  obtain ⟨-, hserial⟩ := serialisable {} sampleBackend actions schedule
  obtain ⟨-, -, hserial⟩ := hserial _ hdone
  obtain ⟨houtcomes, hledger⟩ := hserial [2, 1, 0] (by decide) (by rw [horder]; decide)
  exact ⟨hdone, horder, houtcomes, hledger⟩

end Machine
end Wallet
end SimpleLedger
