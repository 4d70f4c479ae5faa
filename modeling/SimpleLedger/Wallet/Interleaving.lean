import SimpleLedger.Wallet.Backend

/-!
# Procedures side by side

A `Machine` runs several procedures on one backend.  They share the lock, and whoever comes to it
while another holds it has to wait.

* `Machine.step i` lets procedure `i` take a single step, and `Machine.exec` follows a schedule of
  such steps: any order at all.
* `Machine.turn i` lets procedure `i` go on until it pauses, waits or is done, and
  `Machine.rounds` gives turns to all of them in order.  Since a pause is all that a procedure
  yields to, this is how they run on a single thread.
* `Machine.exists_exec_eq_rounds`: whatever rounds of turns lead to, some schedule of steps leads
  to as well.
-/

set_option autoImplicit false

namespace SimpleLedger
namespace Wallet

/-- Procedures that are under way on one backend. -/
structure Machine (α : Type) where
  backend : Backend
  /-- Who holds the lock. -/
  holder : Option Nat
  procedures : List (Procedure α)

namespace Machine

variable {α : Type}

/-- All procedures at their beginning. -/
def start (b : Backend) (procedures : List (Procedure α)) : Machine α := ⟨b, none, procedures⟩

/-! ## Steps -/

/-- One step of a procedure with the lock and the backend, by the procedure at index `i`. -/
def advance (i : Nat) (holder : Option Nat) (b : Backend) :
    Procedure α → Procedure α × Option Nat × Backend
  | .done a => (.done a, holder, b)
  | .call c next =>
    let (r, b) := b.answer c
    (next r, holder, b)
  | .pause next => (next, holder, b)
  | .lock next =>
    match holder with
    | none => (next, some i, b)
    | some _ => (.lock next, holder, b)
  | .unlock next => (next, none, b)

/-- A single step of procedure `i`.  Nothing happens where there is no such procedure, where it is
done, and where it waits for a lock that is held. -/
def step (m : Machine α) (i : Nat) : Machine α :=
  match m.procedures[i]? with
  | none => m
  | some p =>
    let (p, holder, b) := advance i m.holder m.backend p
    ⟨b, holder, m.procedures.set i p⟩

/-- Follows a schedule, which says whose step is next. -/
def exec (m : Machine α) (schedule : List Nat) : Machine α := schedule.foldl step m

/-! ## Turns -/

/-- The steps of a procedure until it pauses, waits for the lock or is done. -/
def proceed (i : Nat) (holder : Option Nat) (b : Backend) :
    Procedure α → Procedure α × Option Nat × Backend
  | .done a => (.done a, holder, b)
  | .call c next =>
    let (r, b) := b.answer c
    proceed i holder b (next r)
  | .pause next => (next, holder, b)
  | .lock next =>
    match holder with
    | none => proceed i (some i) b next
    | some _ => (.lock next, holder, b)
  | .unlock next => proceed i none b next

/-- Procedure `i` goes on until it pauses, waits or is done. -/
def turn (m : Machine α) (i : Nat) : Machine α :=
  match m.procedures[i]? with
  | none => m
  | some p =>
    let (p, holder, b) := proceed i m.holder m.backend p
    ⟨b, holder, m.procedures.set i p⟩

/-- A turn for each procedure, in their order. -/
def round (m : Machine α) : Machine α := (List.range m.procedures.length).foldl turn m

/-- So many rounds, one after the other. -/
def rounds (m : Machine α) : Nat → Machine α
  | 0 => m
  | n + 1 => m.round.rounds n

/-- The results of the procedures that are done, in the order of the procedures. -/
def results (m : Machine α) : List α := m.procedures.filterMap Procedure.result?

/-! ## Turns are made of steps -/

theorem exec_append (m : Machine α) (s t : List Nat) : m.exec (s ++ t) = (m.exec s).exec t :=
  List.foldl_append

theorem step_set {b : Backend} {holder : Option Nat} {ps : List (Procedure α)} {i : Nat}
    (hi : i < ps.length) (p : Procedure α) :
    step ⟨b, holder, ps.set i p⟩ i =
      ⟨(advance i holder b p).2.2, (advance i holder b p).2.1,
        ps.set i (advance i holder b p).1⟩ := by
  simp [step, hi]

theorem exists_exec_eq_proceed {ps : List (Procedure α)} {i : Nat} (hi : i < ps.length)
    (p : Procedure α) : ∀ (b : Backend) (holder : Option Nat),
    ∃ n, exec ⟨b, holder, ps.set i p⟩ (List.replicate n i) =
      ⟨(proceed i holder b p).2.2, (proceed i holder b p).2.1,
        ps.set i (proceed i holder b p).1⟩ := by
  induction p with
  | done a => exact fun b holder => ⟨0, rfl⟩
  | call c next ih =>
    intro b holder
    obtain ⟨n, hn⟩ := ih (b.answer c).1 (b.answer c).2 holder
    refine ⟨n + 1, ?_⟩
    rw [List.replicate_succ, exec, List.foldl_cons, step_set hi]
    exact hn
  | pause next ih =>
    intro b holder
    refine ⟨1, ?_⟩
    rw [List.replicate_one, exec, List.foldl_cons, step_set hi]
    rfl
  | lock next ih =>
    intro b holder
    cases holder with
    | none =>
      obtain ⟨n, hn⟩ := ih b (some i)
      refine ⟨n + 1, ?_⟩
      rw [List.replicate_succ, exec, List.foldl_cons, step_set hi]
      exact hn
    | some j => exact ⟨0, rfl⟩
  | unlock next ih =>
    intro b holder
    obtain ⟨n, hn⟩ := ih b none
    refine ⟨n + 1, ?_⟩
    rw [List.replicate_succ, exec, List.foldl_cons, step_set hi]
    exact hn

theorem exists_exec_eq_turn (m : Machine α) (i : Nat) :
    ∃ n, m.exec (List.replicate n i) = m.turn i := by
  unfold turn
  split
  next => exact ⟨0, rfl⟩
  next p hp =>
    obtain ⟨hi, rfl⟩ := List.getElem?_eq_some_iff.1 hp
    obtain ⟨n, hn⟩ := exists_exec_eq_proceed hi m.procedures[i] m.backend m.holder
    rw [List.set_getElem_self] at hn
    exact ⟨n, hn⟩

theorem exists_exec_eq_foldl_turn (is : List Nat) (m : Machine α) :
    ∃ schedule, m.exec schedule = is.foldl turn m := by
  induction is generalizing m with
  | nil => exact ⟨[], rfl⟩
  | cons i is ih =>
    obtain ⟨n, hn⟩ := m.exists_exec_eq_turn i
    obtain ⟨schedule, hs⟩ := ih (m.turn i)
    exact ⟨List.replicate n i ++ schedule, by rw [exec_append, hn, hs, List.foldl_cons]⟩

/-- Rounds of turns follow some schedule of steps. -/
theorem exists_exec_eq_rounds (n : Nat) (m : Machine α) :
    ∃ schedule, m.exec schedule = m.rounds n := by
  induction n generalizing m with
  | zero => exact ⟨[], rfl⟩
  | succ n ih =>
    obtain ⟨s, hs⟩ := exists_exec_eq_foldl_turn (List.range m.procedures.length) m
    obtain ⟨t, ht⟩ := ih m.round
    exact ⟨s ++ t, by rw [exec_append, hs, rounds, ← ht, round]⟩

end Machine
end Wallet
end SimpleLedger
