import SimpleLedger.Proofs.Wallet.Broadcasts
import SimpleLedger.Wallet.Session

/-!
# Sessions

A session is a `Run`: actions side by side, again and again, each time until all of them are done.

* `Machine.exists_exec_eq_run_of_free`: while all others wait, a procedure gets to its end.
* `Machine.exists_exec_eq_run`: an action on its own takes the steps that it takes among others, so
  one action after the other is a run too (`Run.act`).
* `Run.exists_broadcasts`: a run leads to a history with one draft for each action that succeeded.
-/

set_option autoImplicit false

namespace SimpleLedger
namespace Wallet

namespace Machine

/-! ## Alone -/

variable {plan : Backend → Draft → Prop} {s b : Backend} {p : Procedure Outcome}
  {ps : List (Procedure Outcome)} {i : Nat}

theorem exec_replicate_succ (m : Machine Outcome) (n i : Nat) :
    m.exec (List.replicate (n + 1) i) = (m.step i).exec (List.replicate n i) := by
  rw [List.replicate_succ, exec, List.foldl_cons, exec]

theorem exists_exec_eq_run_of_held (hi : i < ps.length) (h : Held plan s p) (hb : b.unlogged = s) :
    ∃ n, exec ⟨b, some i, ps.set i p⟩ (List.replicate n i) =
      ⟨(p.run b).2, none, ps.set i (.done (p.run b).1)⟩ := by
  induction h generalizing b with
  | @ask c next hc h ih =>
    rw [← hb, Backend.answer_unlogged] at ih
    obtain ⟨n, hn⟩ := ih (by rw [Backend.unlogged_answer hc, hb])
    exact ⟨n + 1, by rw [exec_replicate_succ, step_set hi]; exact hn⟩
  | pause _ ih =>
    obtain ⟨n, hn⟩ := ih hb
    exact ⟨n + 1, by rw [exec_replicate_succ, step_set hi]; exact hn⟩
  | @broadcast d next hd h =>
    refine ⟨2, ?_⟩
    rw [exec_replicate_succ, step_set hi]
    dsimp only [advance]
    rw [h, exec_replicate_succ, step_set hi, Procedure.run]
    dsimp only
    rw [h]
    rfl
  | giveUp e => exact ⟨1, by rw [exec_replicate_succ, step_set hi]; rfl⟩

theorem exists_exec_eq_run_of_free (hi : i < ps.length) (h : Free plan s p) (hb : b.settings = s) :
    ∃ n, exec ⟨b, none, ps.set i p⟩ (List.replicate n i) =
      ⟨(p.run b).2, none, ps.set i (.done (p.run b).1)⟩ := by
  induction h generalizing b with
  | @ask id next h ih =>
    have hname : (Call.tokenDescriptor id).name ≠ .broadcast := nofun
    have hlog := Backend.settings_eq_of_unlogged_eq (Backend.unlogged_answer hname b)
    rw [← hb, Backend.answer_settings] at ih
    obtain ⟨n, hn⟩ := ih hlog
    exact ⟨n + 1, by rw [exec_replicate_succ, step_set hi]; exact hn⟩
  | lock h =>
    obtain ⟨n, hn⟩ := exists_exec_eq_run_of_held hi (h b hb) rfl
    exact ⟨n + 1, by rw [exec_replicate_succ, step_set hi]; exact hn⟩
  | giveUp e => exact ⟨0, rfl⟩

/-- An action on its own takes the steps that it takes among others. -/
theorem exists_exec_eq_run (config : Config) (b : Backend) (a : Action) :
    ∃ n, (start b [a.procedure config]).exec (List.replicate n 0) =
      ⟨((a.procedure config).run b).2, none, [.done ((a.procedure config).run b).1]⟩ := by
  have hi : 0 < [a.procedure config].length := Nat.one_pos
  obtain ⟨n, hn⟩ := exists_exec_eq_run_of_free hi (a.free_procedure config b) rfl
  exact ⟨n, hn⟩

end Machine

/-! ## Runs -/

/-- Actions run side by side from `b` on, their steps in any order, until all of them are done.
Then anything but the coins may change, and more actions may follow. -/
inductive Run (config : Config) (b : Backend) : List (Action × Outcome) → Backend → Prop
  | start : Run config b [] b
  | together {finished : List (Action × Outcome)} {b' : Backend} {m : Machine Outcome}
      {actions : List Action} {outcomes : List Outcome} {schedule : List Nat}
      (h : Run config b finished b')
      (hm : (Machine.start b' (actions.map (Action.procedure config))).exec schedule = m)
      (hdone : m.procedures = outcomes.map .done) :
      Run config b (finished ++ actions.zip outcomes) m.backend
  | between {finished : List (Action × Outcome)} {b' b'' : Backend}
      (h : Run config b finished b') (hcoins : Backend.SameCoins b' b'') :
      Run config b finished b''

namespace Run

variable {config : Config} {b b' : Backend} {finished : List (Action × Outcome)}

/-- An action on its own is a run. -/
theorem act (h : Run config b finished b') (a : Action) :
    Run config b (finished ++ [(a, (b'.act config a).1)]) (b'.act config a).2 := by
  obtain ⟨n, hn⟩ := Machine.exists_exec_eq_run config b' a
  have hm : (Machine.start b' ([a].map (Action.procedure config))).exec (List.replicate n 0) =
      ⟨(b'.act config a).2, none, [(b'.act config a).1].map .done⟩ := hn
  exact h.together hm rfl

/-- **A run** broadcasts one draft for each action that succeeds, and none for the others. -/
theorem exists_broadcasts (h : Run config b finished b') :
    ∃ done, Broadcasts config b done b' ∧
      ((finished.filter fun p => p.2.isOk).map Prod.fst).Perm (done.map Prod.fst) := by
  induction h with
  | start => exact ⟨[], .start, .nil⟩
  | together _ hm hdone ih =>
    obtain ⟨done₁, hdone₁, hperm₁⟩ := ih
    obtain ⟨-, done₂, hdone₂, hperm₂⟩ := Machine.exec_broadcasts config _ _ _
    rw [hm] at hdone₂ hperm₂
    rw [Machine.committed_of_done hdone] at hperm₂
    refine ⟨done₁ ++ done₂, hdone₁.trans hdone₂, ?_⟩
    rw [List.filter_append, List.map_append, List.map_append]
    exact hperm₁.append hperm₂
  | between _ hcoins ih =>
    obtain ⟨done, hdone, hperm⟩ := ih
    exact ⟨done, hdone.between hcoins, hperm⟩

end Run

end Wallet
end SimpleLedger
