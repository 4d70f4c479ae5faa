import SimpleLedger.Proofs.Wallet.Discipline

/-!
# What is broadcast, and when

However the steps of actions are mixed, the ledger only sees one planned draft after the other.

* `Machine.Disciplined` is the invariant, and `Machine.Disciplined.step` says what a single step
  does.
* `Broadcasts` is the history of a backend: drafts that were planned for the coins that were there
  at the time.
* `Machine.exec_broadcasts`: every schedule leads to such a history, with one draft for each action
  that has broadcast.
-/

set_option autoImplicit false

namespace SimpleLedger
namespace Wallet

/-! ## Histories -/

/-- The drafts that were recorded since the backend `b`, with the actions that planned them. -/
inductive Broadcasts (config : Config) (b : Backend) : List (Action × Draft) → Backend → Prop
  | start : Broadcasts config b [] b
  | commit {done : List (Action × Draft)} {b' : Backend} {a : Action} {d : Draft}
      (h : Broadcasts config b done b') (hd : a.Plans config b' d) :
      Broadcasts config b (done ++ [(a, d)]) (b'.record d)
  /-- Anything but the coins may change in between. -/
  | between {done : List (Action × Draft)} {b' b'' : Backend} (h : Broadcasts config b done b')
      (hcoins : Backend.SameCoins b' b'') : Broadcasts config b done b''

theorem Broadcasts.trans {config : Config} {b b' b'' : Backend}
    {done₁ done₂ : List (Action × Draft)} (h₁ : Broadcasts config b done₁ b')
    (h₂ : Broadcasts config b' done₂ b'') : Broadcasts config b (done₁ ++ done₂) b'' := by
  induction h₂ with
  | start => rwa [List.append_nil]
  | commit _ hd ih =>
    rw [← List.append_assoc]
    exact ih.commit hd
  | between _ hcoins ih => exact ih.between hcoins

namespace Machine

/-! ## Who has broadcast -/

/-- The actions whose procedures have broadcast their drafts. -/
def committed (actions : List Action) (m : Machine Outcome) : List Action :=
  ((actions.zip m.procedures).filter fun p => p.2.committed).map Prod.fst

theorem zip_set {α β : Type} {as : List α} {bs : List β} {i : Nat} {a : α} (ha : as[i]? = some a)
    (b : β) : as.zip (bs.set i b) = (as.zip bs).set i (a, b) := by
  induction as generalizing bs i with
  | nil => cases ha
  | cons x as ih =>
    cases bs with
    | nil => rfl
    | cons y bs =>
      cases i with
      | zero =>
        cases ha
        rfl
      | succ i => rw [List.set_cons_succ, List.zip_cons_cons, ih ha, List.zip_cons_cons,
          List.set_cons_succ]

variable {config : Config} {actions : List Action} {m : Machine Outcome} {i : Nat} {a : Action}
  {p p' : Procedure Outcome}

/-- Another procedure at index `i` only counts or does not count action `i`. -/
theorem exists_committed_eq (ha : actions[i]? = some a) (hp : m.procedures[i]? = some p) :
    ∃ as bs : List Action,
      m.committed actions = as ++ (if p.committed then [a] else []) ++ bs ∧
      ∀ b holder p', committed actions ⟨b, holder, m.procedures.set i p'⟩ =
        as ++ (if p'.committed then [a] else []) ++ bs := by
  have hzip : (actions.zip m.procedures)[i]? = some (a, p) := by
    rw [List.getElem?_zip_eq_some]
    exact ⟨ha, hp⟩
  obtain ⟨hi, hget⟩ := List.getElem?_eq_some_iff.1 hzip
  have hset : ∀ x, (actions.zip m.procedures).set i x =
      (actions.zip m.procedures).take i ++ x :: (actions.zip m.procedures).drop (i + 1) :=
    fun x => by rw [List.set_eq_take_append_cons_drop, if_pos hi]
  have hself := hset (a, p)
  rw [← hget, List.set_getElem_self, hget] at hself
  generalize (actions.zip m.procedures).take i = l₁ at hset hself
  generalize (actions.zip m.procedures).drop (i + 1) = l₂ at hset hself
  have hpart : ∀ q : Procedure Outcome,
      ((l₁ ++ (a, q) :: l₂).filter fun p => p.2.committed).map Prod.fst =
        (l₁.filter fun p => p.2.committed).map Prod.fst ++
          (if q.committed then [a] else []) ++
          (l₂.filter fun p => p.2.committed).map Prod.fst := by
    intro q
    rw [List.filter_append, List.filter_cons, List.map_append]
    split <;> simp
  refine ⟨_, _, by rw [committed, hself, hpart], fun b holder p' => ?_⟩
  rw [committed, zip_set ha, hset, hpart]

/-- Once all are done, the actions that have broadcast are those that succeeded. -/
theorem committed_of_done {outcomes : List Outcome} (hdone : m.procedures = outcomes.map .done) :
    m.committed actions = ((actions.zip outcomes).filter fun p => p.2.isOk).map Prod.fst := by
  rw [committed, hdone, List.zip_map_right, List.filter_map, List.map_map]
  have hisOk : ∀ r : Outcome, (Procedure.done r).committed = r.isOk := by
    intro r
    cases r <;> rfl
  exact congrArg _ (List.filter_congr fun p _ => hisOk p.2)

/-! ## The invariant -/

/-- Every procedure is at a stage of its action. -/
structure Disciplined (config : Config) (actions : List Action) (m : Machine Outcome) : Prop where
  length_eq : m.procedures.length = actions.length
  stage : ∀ (i : Nat) (a : Action) (p : Procedure Outcome), actions[i]? = some a →
    m.procedures[i]? = some p → Stage (a.Plans config) m.backend m.holder i p

/-- What a step did: nothing to the ledger, or a draft was recorded. -/
inductive Moved (config : Config) (actions : List Action) (m m' : Machine Outcome) : Prop
  | quiet (hb : m'.backend.unlogged = m.backend.unlogged)
      (hc : m'.committed actions = m.committed actions)
  | commit {a : Action} {d : Draft} (hd : a.Plans config m.backend.unlogged d)
      (hb : m'.backend.unlogged = m.backend.unlogged.record d)
      (hc : (m'.committed actions).Perm (a :: m.committed actions))

theorem disciplined_start (config : Config) (b : Backend) (actions : List Action) :
    Disciplined config actions (start b (actions.map (Action.procedure config))) := by
  refine ⟨List.length_map _, fun i a p ha hp => ?_⟩
  rw [start, List.getElem?_map, ha] at hp
  cases hp
  exact .free nofun (a.free_procedure config b)

theorem committed_start (config : Config) (b : Backend) (actions : List Action) :
    committed actions (start b (actions.map (Action.procedure config))) = [] := by
  rw [committed, List.map_eq_nil_iff, List.filter_eq_nil_iff]
  rintro ⟨a, p⟩ hp
  obtain ⟨a', -, rfl⟩ := List.mem_map.1 (List.of_mem_zip hp).2
  rw [(a'.free_procedure config b).committed_eq_false]
  exact Bool.false_ne_true

theorem step_eq {r : Procedure Outcome × Option Nat × Backend} (hp : m.procedures[i]? = some p)
    (hr : advance i m.holder m.backend p = r) :
    m.step i = ⟨r.2.2, r.2.1, m.procedures.set i r.1⟩ := by
  rw [step, hp, ← hr]

/-- **A step** keeps the invariant, and the ledger sees at most a planned draft. -/
theorem Disciplined.step (h : Disciplined config actions m) (i : Nat) :
    Disciplined config actions (m.step i) ∧ Moved config actions m (m.step i) := by
  cases hp : m.procedures[i]? with
  | none =>
    rw [Machine.step, hp]
    exact ⟨h, .quiet rfl rfl⟩
  | some p =>
    obtain ⟨hi, -⟩ := List.getElem?_eq_some_iff.1 hp
    obtain ⟨a, ha⟩ : ∃ a, actions[i]? = some a :=
      ⟨_, List.getElem?_eq_getElem (h.length_eq ▸ hi)⟩
    rcases hr : advance i m.holder m.backend p with ⟨p', holder', b'⟩
    have hadvanced := (h.stage i a p ha hp).advance hr
    obtain ⟨as, bs, hbefore, hafter⟩ := exists_committed_eq ha hp
    rw [step_eq hp hr]
    refine ⟨⟨?_, fun j a' q ha' hq => ?_⟩, ?_⟩
    · rw [List.length_set, h.length_eq]
    · by_cases hj : i = j
      · subst hj
        rw [List.getElem?_set_self hi] at hq
        rw [ha] at ha'
        cases ha'
        cases hq
        exact hadvanced.stage
      · rw [List.getElem?_set_ne hj] at hq
        exact (h.stage j a' q ha' hq).frame (Ne.symm hj) hadvanced
    · rcases hadvanced.effect with ⟨hb, hc⟩ | ⟨-, d, hd, hb, hp, hp'⟩
      · exact .quiet hb (by rw [hafter, hbefore, hc])
      · refine .commit hd hb ?_
        rw [hafter, hbefore, hp, hp']
        simp

/-! ## Runs -/

theorem exec_concat (m : Machine Outcome) (schedule : List Nat) (i : Nat) :
    m.exec (schedule ++ [i]) = (m.exec schedule).step i := by
  rw [exec_append]
  rfl

/-- **Every schedule** records one planned draft after the other, one for each action that has
broadcast. -/
theorem exec_broadcasts (config : Config) (b : Backend) (actions : List Action)
    (schedule : List Nat) :
    Disciplined config actions
        ((start b (actions.map (Action.procedure config))).exec schedule) ∧
      ∃ done, Broadcasts config b done
          ((start b (actions.map (Action.procedure config))).exec schedule).backend ∧
        (((start b (actions.map (Action.procedure config))).exec schedule).committed actions).Perm
          (done.map Prod.fst) := by
  induction schedule using List.reverseRecOn with
  | nil =>
    refine ⟨disciplined_start config b actions, [], .start, ?_⟩
    rw [exec, List.foldl_nil, committed_start]
    exact .nil
  | append_singleton schedule i ih =>
    obtain ⟨hdisciplined, done, hdone, hperm⟩ := ih
    rw [exec_concat]
    generalize (start b (actions.map (Action.procedure config))).exec schedule = m at *
    obtain ⟨hdisciplined, hmoved⟩ := hdisciplined.step i
    refine ⟨hdisciplined, ?_⟩
    cases hmoved with
    | quiet hb hc =>
      exact ⟨done, hdone.between (.of_unlogged_eq hb), hc ▸ hperm⟩
    | @commit a d hd hb hc =>
      refine ⟨done ++ [(a, d)], ?_, ?_⟩
      · have hunlogged : Broadcasts config b done m.backend.unlogged :=
          hdone.between (.of_unlogged_eq rfl)
        exact (hunlogged.commit hd).between (.of_unlogged_eq (by rw [hb]; rfl))
      · rw [List.map_append]
        exact hc.trans ((hperm.cons a).trans (List.perm_append_singleton a _).symm)

end Machine
end Wallet
end SimpleLedger
