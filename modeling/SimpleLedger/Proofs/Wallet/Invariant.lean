import SimpleLedger.Proofs.Wallet.DoubleSpend

/-!
# What every step preserves

Whatever actions do, no coin appears, and all but the ledger and the log stays as it was.

* `Backend.Remains` says so of a backend and what is left of it, with the marks of its coins, and
  `Backend.remains_answer` that every call leaves such a backend.
* `Machine.exec_invariant`: what the steps of a procedure preserve, every schedule preserves.
* `Machine.exec_planned`: every recorded draft was planned for what was left at the time.
-/

set_option autoImplicit false

namespace SimpleLedger
namespace Wallet

namespace Backend

/-! ## What is left of a backend -/

/-- What may be left of a backend while actions run. -/
structure Remains (b b' : Backend) : Prop where
  settings : b'.settings = b.settings
  tokenCoins : b'.tokenCoins.Sublist b.tokenCoins
  plainCoins : b'.plainCoins.Sublist b.plainCoins

namespace Remains

variable {b b' b'' : Backend}

theorem refl (b : Backend) : Remains b b := ⟨rfl, .refl _, .refl _⟩

theorem trans (h : Remains b b') (h' : Remains b' b'') : Remains b b'' :=
  ⟨h'.settings.trans h.settings, h'.tokenCoins.trans h.tokenCoins,
    h'.plainCoins.trans h.plainCoins⟩

theorem of_unlogged_eq (h : b'.unlogged = b.unlogged) : Remains b b' := by
  have htokens := congrArg Backend.tokenCoins h
  have hplain := congrArg Backend.plainCoins h
  change b'.tokenCoins = b.tokenCoins at htokens
  change b'.plainCoins = b.plainCoins at hplain
  exact ⟨settings_eq_of_unlogged_eq h, htokens ▸ .refl _, hplain ▸ .refl _⟩

theorem tokens (h : Remains b b') : b'.tokens.Sublist b.tokens := h.tokenCoins.map _

theorem plain (h : Remains b b') : b'.plain.Sublist b.plain := h.plainCoins.map _

end Remains

theorem remains_record (b : Backend) (d : Draft) : Remains b (b.record d) :=
  ⟨b.settings_record d, List.filter_sublist, List.filter_sublist⟩

theorem remains_answer (b : Backend) (c : Call) : Remains b (b.answer c).2 := by
  by_cases hc : c.name = .broadcast
  · cases c with
    | broadcast d =>
      rcases b.answer_broadcast d with ⟨e, -, hb⟩ | ⟨id, -, hb⟩
      · exact .of_unlogged_eq hb
      · exact (b.remains_record d).trans (.of_unlogged_eq hb)
    | _ => cases hc
  · exact .of_unlogged_eq (unlogged_answer hc b)

end Backend

namespace Machine

/-! ## Invariants of procedures -/

section

variable {α : Type} {rely : Backend → Prop} {inv : Nat → Procedure α → Prop} {m : Machine α}

theorem step_invariant
    (hadvance : ∀ i holder b p, rely b → inv i p →
      inv i (advance i holder b p).1 ∧ rely (advance i holder b p).2.2)
    (hb : rely m.backend) (hm : ∀ i p, m.procedures[i]? = some p → inv i p) (i : Nat) :
    rely (m.step i).backend ∧ ∀ j p, (m.step i).procedures[j]? = some p → inv j p := by
  rw [step]
  split
  next => exact ⟨hb, hm⟩
  next p hp =>
  obtain ⟨hinv, hrely⟩ := hadvance i m.holder m.backend p hb (hm i p hp)
  refine ⟨hrely, fun j q hq => ?_⟩
  obtain ⟨hi, -⟩ := List.getElem?_eq_some_iff.1 hp
  by_cases hj : i = j
  · subst hj
    rw [List.getElem?_set_self hi] at hq
    cases hq
    exact hinv
  · rw [List.getElem?_set_ne hj] at hq
    exact hm j q hq

/-- **What every step preserves** of a procedure holds of it after every schedule, and the backend
keeps what the steps rely on. -/
theorem exec_invariant
    (hadvance : ∀ i holder b p, rely b → inv i p →
      inv i (advance i holder b p).1 ∧ rely (advance i holder b p).2.2)
    (hb : rely m.backend) (hm : ∀ i p, m.procedures[i]? = some p → inv i p)
    (schedule : List Nat) :
    rely (m.exec schedule).backend ∧
      ∀ i p, (m.exec schedule).procedures[i]? = some p → inv i p := by
  induction schedule generalizing m with
  | nil => exact ⟨hb, hm⟩
  | cons i schedule ih =>
    obtain ⟨hb, hm⟩ := step_invariant hadvance hb hm i
    exact ih hb hm

/-- Procedures come from actions one by one. -/
theorem exists_of_start {config : Config} {b : Backend} {actions : List Action} {i : Nat}
    {p : Procedure Outcome}
    (h : (start b (actions.map (Action.procedure config))).procedures[i]? = some p) :
    ∃ a, actions[i]? = some a ∧ p = a.procedure config := by
  rw [start, List.getElem?_map, Option.map_eq_some_iff] at h
  obtain ⟨a, ha, rfl⟩ := h
  exact ⟨a, ha, rfl⟩

end

/-! ## Histories -/

theorem mem_of_mem_committed {actions : List Action} {m : Machine Outcome} {a : Action}
    (h : a ∈ m.committed actions) : a ∈ actions := by
  obtain ⟨⟨a', p⟩, hp, rfl⟩ := List.mem_map.1 h
  exact (List.of_mem_zip (List.mem_filter.1 hp).1).1

/-- **Every recorded draft** was planned by one of the actions for what was left at the time. -/
theorem exec_planned (config : Config) (b : Backend) (actions : List Action)
    (schedule : List Nat) :
    Disciplined config actions
        ((start b (actions.map (Action.procedure config))).exec schedule) ∧
      b.Remains ((start b (actions.map (Action.procedure config))).exec schedule).backend ∧
      ∃ done : List (Action × Draft),
        ((start b (actions.map (Action.procedure config))).exec schedule).backend.recorded =
          b.recorded ++ done.map Prod.snd ∧
        ∀ p ∈ done, p.1 ∈ actions ∧ ∃ b', b.Remains b' ∧ p.1.Plans config b' p.2 := by
  induction schedule using List.reverseRecOn with
  | nil =>
    exact ⟨disciplined_start config b actions, .refl b, [], (List.append_nil _).symm, nofun⟩
  | append_singleton schedule i ih =>
    obtain ⟨hdisciplined, hremains, done, hrecorded, hdone⟩ := ih
    rw [exec_concat]
    generalize (start b (actions.map (Action.procedure config))).exec schedule = m at *
    obtain ⟨hdisciplined, hmoved⟩ := hdisciplined.step i
    refine ⟨hdisciplined, ?_⟩
    cases hmoved with
    | quiet hb _ =>
      have hsame := (Backend.SameCoins.of_unlogged_eq hb).recorded
      exact ⟨hremains.trans (.of_unlogged_eq hb), done, hsame.trans hrecorded, hdone⟩
    | @commit a d hd hb hc =>
      have hunlogged : b.Remains m.backend.unlogged := hremains.trans (.of_unlogged_eq rfl)
      have hafter : (m.step i).backend.unlogged = (m.backend.unlogged.record d).unlogged := by
        rw [hb]
        rfl
      refine ⟨hunlogged.trans ((Backend.remains_record _ d).trans (.of_unlogged_eq hafter)),
        done ++ [(a, d)], ?_, fun p hp => ?_⟩
      · have hrecord : (m.step i).backend.recorded = m.backend.recorded ++ [d] :=
          congrArg Backend.recorded hb
        rw [hrecord, hrecorded, List.map_append, List.append_assoc]
        rfl
      · rw [List.mem_append, List.mem_singleton] at hp
        rcases hp with hp | rfl
        · exact hdone p hp
        · exact ⟨mem_of_mem_committed (hc.mem_iff.2 (List.mem_cons_self ..)), _, hunlogged, hd⟩

end Machine
end Wallet
end SimpleLedger
