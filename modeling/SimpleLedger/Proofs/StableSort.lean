import Mathlib

/-!
# Stable sorting

Coins are taken in ascending order, and coins that compare equal in the order in which they were
given.  `IsStableSort` says so of two lists without saying how one is obtained from the other, and
`isStableSort_mergeSort` says it of the sort that is used.  Where the entries come from a permuted
list, `IsStableSort.map_eq` says what is still at its place: whatever the key determines.  Without
ties that is everything (`IsStableSort.eq_of_nodup`).
-/

set_option autoImplicit false

namespace SimpleLedger

variable {α κ : Type} [LE κ] [DecidableEq κ]

/-- `ys` has the entries of `xs` by ascending key, those of one key in the order they had. -/
structure IsStableSort (key : α → κ) (xs ys : List α) : Prop where
  perm : ys.Perm xs
  sorted : ys.Pairwise fun a b => key a ≤ key b
  /-- Entries with the same key keep their order. -/
  stable : ∀ k, ys.filter (key · = k) = xs.filter (key · = k)

theorem isStableSort_mergeSort [DecidableLE κ] [Std.IsLinearPreorder κ] (key : α → κ)
    (xs : List α) : IsStableSort key xs (xs.mergeSort fun a b => key a ≤ key b) := by
  have htrans (a b c : α) (hab : decide (key a ≤ key b) = true)
      (hbc : decide (key b ≤ key c) = true) : decide (key a ≤ key c) = true := by
    rw [decide_eq_true_eq] at hab hbc ⊢
    exact Std.le_trans hab hbc
  have htotal (a b : α) : (decide (key a ≤ key b) || decide (key b ≤ key a)) = true := by
    rw [Bool.or_eq_true, decide_eq_true_eq, decide_eq_true_eq]
    exact Std.le_total
  have hperm : (xs.mergeSort fun a b => key a ≤ key b).Perm xs := List.mergeSort_perm xs _
  refine ⟨hperm, ?_, fun k => ?_⟩
  · exact (List.pairwise_mergeSort htrans htotal xs).imp of_decide_eq_true
  -- the entries of one key are sorted already, so they come through as they are
  have hties : (xs.filter (key · = k)).Pairwise fun a b => decide (key a ≤ key b) = true := by
    refine List.pairwise_filter.2 (List.pairwise_of_forall fun a b ha hb => ?_)
    rw [decide_eq_true_eq] at ha hb ⊢
    rw [ha, hb]
    exact Std.le_refl k
  have hsub := (List.sublist_mergeSort htrans htotal hties List.filter_sublist).filter (key · = k)
  simp only [List.filter_filter, Bool.and_self] at hsub
  exact (hsub.eq_of_length (hperm.filter _).length_eq.symm).symm

/-! ## Sorting permuted lists -/

section

variable {β : Type} [Std.Antisymm fun a b : κ => a ≤ b] {key : α → κ} {xs xs' ys ys' : List α}

theorem IsStableSort.map_key_eq (h : IsStableSort key xs ys) (h' : IsStableSort key xs' ys')
    (hperm : xs'.Perm xs) : ys'.map key = ys.map key := by
  have hkeys : (ys'.map key).Perm (ys.map key) :=
    (h'.perm.trans (hperm.trans h.perm.symm)).map key
  exact hkeys.eq_of_pairwise (fun _ _ _ _ => Std.le_antisymm) (List.pairwise_map.2 h'.sorted)
    (List.pairwise_map.2 h.sorted)

/-- Whatever the key determines is the same at every place. -/
theorem IsStableSort.map_eq (h : IsStableSort key xs ys) (h' : IsStableSort key xs' ys')
    (hperm : xs'.Perm xs) {f : α → β}
    (hf : ∀ a ∈ xs, ∀ b ∈ xs, key a = key b → f a = f b) : ys'.map f = ys.map f := by
  have hkeys := h.map_key_eq h' hperm
  have hlength : ys'.length = ys.length := by simpa using congrArg List.length hkeys
  refine List.ext_getElem (by rw [List.length_map, List.length_map, hlength]) fun i hi' hi => ?_
  rw [List.length_map] at hi hi'
  have hkey := List.getElem_of_eq hkeys (i := i) (by rwa [List.length_map])
  rw [List.getElem_map, List.getElem_map] at hkey ⊢
  refine hf _ ?_ _ ?_ hkey
  · exact (h'.perm.trans hperm).subset (List.getElem_mem hi')
  · exact h.perm.subset (List.getElem_mem hi)

/-- Without ties there is but one way to sort. -/
theorem IsStableSort.eq_of_nodup (h : IsStableSort key xs ys) (h' : IsStableSort key xs' ys')
    (hperm : xs'.Perm xs) (hnodup : (xs.map key).Nodup) : ys' = ys := by
  simpa only [List.map_id] using h.map_eq h' hperm (f := id) fun _ ha _ hb hab =>
    List.inj_on_of_nodup_map hnodup ha hb hab

end

end SimpleLedger
