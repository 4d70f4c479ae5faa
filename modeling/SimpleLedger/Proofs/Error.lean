import SimpleLedger.Error

/-!
# Steps that may fail

A computation in several steps succeeds when each of them does.  These lemmas take such a
computation apart.
-/

set_option autoImplicit false

namespace SimpleLedger

theorem bind_eq_ok_iff {ε α β : Type} {x : Except ε α} {f : α → Except ε β} {b : β} :
    (x >>= f) = .ok b ↔ ∃ a, x = .ok a ∧ f a = .ok b := by
  cases x with
  | error e => exact ⟨nofun, nofun⟩
  | ok a => exact ⟨fun h => ⟨a, rfl, h⟩, fun ⟨_, h, hf⟩ => by cases h; exact hf⟩

theorem bind_eq_error_iff {ε α β : Type} {x : Except ε α} {f : α → Except ε β} {e : ε} :
    (x >>= f) = .error e ↔ x = .error e ∨ ∃ a, x = .ok a ∧ f a = .error e := by
  cases x with
  | error e' =>
    refine ⟨fun h => by cases h; exact .inl rfl, ?_⟩
    rintro (h | ⟨_, h, -⟩)
    · cases h
      rfl
    · cases h
  | ok a =>
    refine ⟨fun h => .inr ⟨a, rfl, h⟩, ?_⟩
    rintro (h | ⟨_, h, hf⟩)
    · cases h
    · cases h
      exact hf

/-- What comes after checked arithmetic comes of its value, or it overflowed. -/
@[elab_as_elim]
theorem checked_bind {α β : Type} {o : Option α} {f : α → Except Error β}
    {motive : Except Error β → Prop} (overflow : motive (.error .overflow))
    (value : ∀ a, o = some a → motive (f a)) : motive (checked o >>= f) := by
  cases o with
  | none => exact overflow
  | some a => exact value a rfl

/-- What comes after checked arithmetic does not overflow if the arithmetic has a value, and it does
not for any such value. -/
theorem checked_bind_ne_overflow {α β : Type} {o : Option α} {p : α → Prop}
    {f : α → Except Error β} (h : ∃ a, o = some a ∧ p a)
    (hf : ∀ a, p a → f a ≠ .error .overflow) : (checked o >>= f) ≠ .error .overflow := by
  obtain ⟨a, rfl, ha⟩ := h
  exact hf a ha

end SimpleLedger
