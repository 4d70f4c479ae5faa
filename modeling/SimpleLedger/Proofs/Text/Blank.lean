import Mathlib
import SimpleLedger.Text.Blank

/-!
# Trimmed texts

* `Text.exists_dropTrailing_append`: what is dropped from the end of a text is a part of it on which
  the test holds, and the rest does not end in such a character.
* `Text.trim_append`: white space around a text makes no difference to what is left of it.
* `Text.trim_eq_self`: a text that neither begins nor ends with white space is left as it is.
-/

set_option autoImplicit false

namespace SimpleLedger
namespace Text

variable {p : Char → Bool} {cs : List Char} {c : Char}

/-! ## Dropping from the end -/

theorem dropTrailing_eq_rdropWhile (p : Char → Bool) (cs : List Char) :
    dropTrailing p cs = cs.rdropWhile p := rfl

theorem exists_dropTrailing_append (p : Char → Bool) (cs : List Char) :
    ∃ dropped, (∀ c ∈ dropped, p c = true) ∧ dropTrailing p cs ++ dropped = cs :=
  ⟨cs.rtakeWhile p, fun _ h => List.mem_rtakeWhile_imp h, List.rdropWhile_append_rtakeWhile⟩

theorem eq_false_of_getLast?_dropTrailing (h : (dropTrailing p cs).getLast? = some c) :
    p c = false := by
  rw [dropTrailing_eq_rdropWhile] at h
  have hne : cs.rdropWhile p ≠ [] := by
    intro hnil
    rw [hnil] at h
    cases h
  rw [List.getLast?_eq_some_getLast hne] at h
  have hnot := List.rdropWhile_last_not p cs hne
  rwa [Option.some.inj h, Bool.not_eq_true] at hnot

/-! ## Trimming -/

/-- White space on both sides is trimmed. -/
theorem trim_append {before after : List Char} (hbefore : ∀ c ∈ before, isBlank c = true)
    (hafter : ∀ c ∈ after, isBlank c = true) (cs : List Char) :
    trim (before ++ cs ++ after) = trim cs := by
  have hdrop : ∀ cs : List Char, dropTrailing isBlank (cs ++ after) = dropTrailing isBlank cs := by
    intro cs
    rw [dropTrailing, List.reverse_append,
      List.dropWhile_append_of_pos (by simpa using hafter), dropTrailing]
  rw [trim, List.append_assoc, List.dropWhile_append_of_pos hbefore, List.dropWhile_append]
  split
  next hempty =>
    -- nothing but white space is left, before the point where the rest begins and after it
    rw [List.isEmpty_iff] at hempty
    have hnone : after.dropWhile isBlank = [] := List.dropWhile_eq_nil_iff.2 hafter
    rw [trim, hempty, hnone]
  next => rw [hdrop, trim]

theorem trim_eq_self (hhead : ∀ c, cs.head? = some c → isBlank c = false)
    (hlast : ∀ c, cs.getLast? = some c → isBlank c = false) : trim cs = cs := by
  have hdrop : cs.dropWhile isBlank = cs := by
    rcases cs with _ | ⟨c, cs⟩
    · rfl
    · exact List.dropWhile_cons_of_neg (by simp [hhead c rfl])
  rw [trim, hdrop, dropTrailing_eq_rdropWhile, List.rdropWhile_eq_self_iff]
  intro hne
  simp [hlast _ (List.getLast?_eq_some_getLast hne)]

theorem eq_false_of_getLast?_trim (h : (trim cs).getLast? = some c) : isBlank c = false :=
  eq_false_of_getLast?_dropTrailing h

theorem eq_false_of_head?_trim (h : (trim cs).head? = some c) : isBlank c = false := by
  obtain ⟨dropped, -, hcs⟩ := exists_dropTrailing_append isBlank (cs.dropWhile isBlank)
  have hhead : (cs.dropWhile isBlank).head? = some c := by
    rw [← hcs, List.head?_append]
    show ((trim cs).head?.or _) = _
    rw [h, Option.some_or]
  have hne : cs.dropWhile isBlank ≠ [] := by
    rintro hnil
    rw [hnil] at hhead
    cases hhead
  have hnot := List.head_dropWhile_not isBlank hne
  rw [List.head?_eq_some_head hne] at hhead
  rwa [Option.some.inj hhead] at hnot

end Text
end SimpleLedger
