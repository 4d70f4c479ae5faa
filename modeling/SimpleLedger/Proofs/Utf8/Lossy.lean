import SimpleLedger.Proofs.Utf8.Machine

/-!
# Text that is not in UTF-8

`ReadsAs bs cs` says, without the machine, how any bytes are read: encoded characters stand for
themselves, and every piece that is not one (`IsBroken`) becomes a single replacement character.
A piece goes on for as long as some encoded character begins with it, and is one byte where none
does.

`decodeLossy_eq_iff`: reading gives a text if and only if the bytes are read as its characters.
-/

set_option autoImplicit false

namespace SimpleLedger
namespace Utf8

/-- Some encoded character begins with `p`. -/
def Begins (p : Bytes) : Prop := ∃ c, p <+: String.utf8EncodeChar c

/-- The longest piece at the front of `p ++ rest` that some encoded character begins with, or the
first byte if there is none, where no encoded character stands there. -/
structure IsBroken (p rest : Bytes) : Prop where
  not_char (c : Char) : ¬String.utf8EncodeChar c <+: p ++ rest
  ne_nil : p ≠ []
  begins : Begins p ∨ p.length = 1
  longest (b : UInt8) : [b] <+: rest → ¬Begins (p ++ [b])

/-- What some bytes read as: encoded characters as themselves, and everything between them as
replacements, one for each broken piece. -/
inductive ReadsAs : Bytes → List Char → Prop where
  | nil : ReadsAs [] []
  | char (c : Char) {rest : Bytes} {cs : List Char} (others : ReadsAs rest cs) :
      ReadsAs (String.utf8EncodeChar c ++ rest) (c :: cs)
  | replaced {p rest : Bytes} {cs : List Char} (h : IsBroken p rest) (others : ReadsAs rest cs) :
      ReadsAs (p ++ rest) ('\uFFFD' :: cs)

/-! ## Pieces -/

theorem Begins.of_append {p q : Bytes} (h : Begins (p ++ q)) : Begins p := by
  obtain ⟨c, hc⟩ := h
  exact ⟨c, (List.prefix_append p q).trans hc⟩

theorem IsBroken.eq_nil_of_longer {p q rest : Bytes} (h : IsBroken p (q ++ rest))
    (h' : IsBroken (p ++ q) rest) : q = [] := by
  cases q with
  | nil => rfl
  | cons b q =>
    exfalso
    rcases h'.begins with hbegins | hlen
    · rw [← List.singleton_append, ← List.append_assoc] at hbegins
      exact h.longest b ⟨q ++ rest, rfl⟩ hbegins.of_append
    · have hpos := List.length_pos_iff.2 h.ne_nil
      rw [List.length_append, List.length_cons] at hlen
      omega

/-- A broken piece ends in one place only. -/
theorem IsBroken.unique {p rest p' rest' : Bytes} (h : IsBroken p rest) (h' : IsBroken p' rest')
    (heq : p ++ rest = p' ++ rest') : rest = rest' := by
  rcases List.append_eq_append_iff.1 heq with ⟨q, rfl, rfl⟩ | ⟨q, rfl, rfl⟩
  · rw [h.eq_nil_of_longer h', List.nil_append]
  · rw [h'.eq_nil_of_longer h, List.nil_append]

/-! ## From inside a character -/

/-- Some character can still be completed after `p`. -/
def Viable (q : State) (p : Bytes) : Prop := ∃ w c, Completes q (p ++ w) c

theorem begins_iff_viable {p : Bytes} : Begins p ↔ Viable .start p := by
  constructor
  · rintro ⟨c, w, h⟩
    exact ⟨w, c, completes_start_iff.2 h.symm⟩
  · rintro ⟨w, c, h⟩
    exact ⟨c, w, (completes_start_iff.1 h).symm⟩

theorem viable_inside (code n : Nat) {low high : UInt8} (h : low ≤ high) :
    Viable (.inside code n low high) [] := by
  induction n generalizing code low high with
  | zero => exact ⟨[low], _, .last ⟨UInt8.le_refl low, h⟩⟩
  | succ n ih =>
    obtain ⟨w, c, hw⟩ := ih (code * 64 + low.toNat % 64) (by decide : (0x80 : UInt8) ≤ 0xbf)
    exact ⟨low :: w, c, .more ⟨UInt8.le_refl low, h⟩ hw⟩

theorem Completes.of_inside {code n : Nat} {low high b : UInt8} {bs : Bytes} {c : Char}
    (h : Completes (.inside code n low high) (b :: bs) c) : low ≤ b ∧ b ≤ high := by
  cases h with
  | last h => exact h
  | more h _ => exact h

theorem Completes.of_lead {b : UInt8} {code n : Nat} {low high : UInt8} {bs : Bytes} {c : Char}
    (hfirst : first b = ([], .inside code n low high)) (h : Completes .start (b :: bs) c) :
    Completes (.inside code n low high) bs c := by
  cases h with
  | ascii h =>
    rw [first_eq, if_pos h] at hfirst
    cases hfirst
  | lead h others =>
    rw [hfirst] at h
    cases h
    exact others

/-- Inside a character, either it is completed, or the machine stops before the first byte that
cannot go on with it. -/
theorem run_inside (code n : Nat) {low high : UInt8} (h : low ≤ high) (bs : Bytes) :
    (∃ p rest c, bs = p ++ rest ∧ Completes (.inside code n low high) p c) ∨
      ∃ p rest, bs = p ++ rest ∧ Viable (.inside code n low high) p ∧
        (∀ b, [b] <+: rest → ¬Viable (.inside code n low high) (p ++ [b])) ∧
        run (.inside code n low high) bs = '\uFFFD' :: run .start rest := by
  induction bs generalizing code n low high with
  | nil =>
    right
    exact ⟨[], [], rfl, viable_inside code n h, fun b hb => absurd hb (by simp), rfl⟩
  | cons b bs ih =>
    by_cases hb : low ≤ b ∧ b ≤ high
    · cases n with
      | zero => exact .inl ⟨[b], bs, _, rfl, .last hb⟩
      | succ n =>
        rcases ih (code * 64 + b.toNat % 64) n (by decide : (0x80 : UInt8) ≤ 0xbf) with
          ⟨p, rest, c, rfl, hp⟩ | ⟨p, rest, rfl, ⟨w, c, hp⟩, hlongest, hrun⟩
        · exact .inl ⟨b :: p, rest, c, rfl, .more hb hp⟩
        · right
          refine ⟨b :: p, rest, rfl, ⟨w, c, .more hb hp⟩, ?_, ?_⟩
          · rintro d hd ⟨w, c, h⟩
            obtain ⟨b', bs', heq, -, h⟩ := h.of_more
            cases heq
            exact hlongest d hd ⟨w, c, h⟩
          · rw [run_cons, step, if_pos hb, List.nil_append, hrun]
    · right
      refine ⟨[], b :: bs, rfl, viable_inside code n h, ?_, ?_⟩
      · rintro d ⟨_, heq⟩ hviable
        cases heq
        obtain ⟨w, c, h⟩ := hviable
        exact hb h.of_inside
      · rw [run_cons, step, if_neg hb]
        rfl

/-! ## From the start -/

theorem first_cases (b : UInt8) :
    b.toNat ≤ 0x7f ∨ (∃ code n low high, first b = ([], .inside code n low high)) ∨
      first b = (['\uFFFD'], .start) := by
  rw [first_eq]
  split
  next h => exact .inl h
  -- The other ranges of a first byte all lead inside, and there is none left after them.
  split_ifs
  iterate 7 exact .inr (.inl ⟨_, _, _, _, rfl⟩)
  exact .inr (.inr rfl)

/-- At the start, either a character is read, or a broken piece is replaced. -/
theorem run_start {bs : Bytes} (hne : bs ≠ []) :
    (∃ c rest, bs = String.utf8EncodeChar c ++ rest) ∨
      ∃ p rest, bs = p ++ rest ∧ IsBroken p rest ∧
        run .start bs = '\uFFFD' :: run .start rest := by
  by_cases hchar : ∃ c rest, bs = String.utf8EncodeChar c ++ rest
  · exact .inl hchar
  right
  have hnot (c : Char) : ¬String.utf8EncodeChar c <+: bs := by
    rintro ⟨rest, h⟩
    exact hchar ⟨c, rest, h.symm⟩
  cases bs with
  | nil => exact absurd rfl hne
  | cons b bs =>
  have hascii : ¬b.toNat ≤ 0x7f := fun h =>
    hchar ⟨_, bs, by rw [completes_start_iff.1 (.ascii h)]; rfl⟩
  rcases first_cases b with h | ⟨code, n, low, high, hfirst⟩ | hfirst
  · exact absurd h hascii
  · obtain ⟨-, hle, -, -⟩ := first_eq_inside hfirst
    rcases run_inside code n (UInt8.le_iff_toNat_le.2 hle) bs with
      ⟨p, rest, c, rfl, hp⟩ | ⟨p, rest, rfl, ⟨w, c, hp⟩, hlongest, hrun⟩
    · refine absurd ⟨c, rest, ?_⟩ hchar
      rw [completes_start_iff.1 (.lead hfirst hp), List.cons_append]
    · refine ⟨b :: p, rest, rfl, ⟨hnot, List.cons_ne_nil b p, .inl ?_, ?_⟩, ?_⟩
      · exact begins_iff_viable.2 ⟨w, c, .lead hfirst hp⟩
      · intro d hd hbegins
        obtain ⟨w, c, h⟩ := begins_iff_viable.1 hbegins
        exact hlongest d hd ⟨w, c, h.of_lead hfirst⟩
      · rw [run_cons, step, hfirst, List.nil_append, hrun]
  · refine ⟨[b], bs, rfl, ⟨hnot, List.cons_ne_nil b [], .inr rfl, ?_⟩, ?_⟩
    · intro d _ hbegins
      obtain ⟨w, c, h⟩ := begins_iff_viable.1 hbegins.of_append
      cases h with
      | ascii h => exact hascii h
      | lead h _ =>
        rw [hfirst] at h
        cases h
    · rw [run_cons, step, hfirst]
      rfl

theorem readsAs_run (bs : Bytes) : ReadsAs bs (run .start bs) := by
  induction h : bs.length using Nat.strongRecOn generalizing bs with
  | ind n ih =>
    cases bs with
    | nil => exact .nil
    | cons b bs =>
      rcases run_start (List.cons_ne_nil b bs) with ⟨c, rest, heq⟩ | ⟨p, rest, heq, hp, hrun⟩
      · have hpos := c.utf8Size_pos
        rw [heq, (completes_start_iff.2 rfl).run_append]
        refine .char c (ih rest.length ?_ rest rfl)
        rw [← h, heq, List.length_append, String.length_utf8EncodeChar]
        omega
      · have hpos := List.length_pos_iff.2 hp.ne_nil
        rw [hrun, heq]
        refine .replaced hp (ih rest.length ?_ rest rfl)
        rw [← h, heq, List.length_append]
        omega

theorem ReadsAs.eq_run {bs : Bytes} {cs : List Char} (h : ReadsAs bs cs) :
    cs = run .start bs := by
  induction h with
  | nil => rfl
  | char c _ ih => rw [(completes_start_iff.2 rfl).run_append, ih]
  | @replaced p rest cs hp _ ih =>
    rcases run_start (List.append_ne_nil_of_left_ne_nil hp.ne_nil rest) with
      ⟨c, rest', heq⟩ | ⟨p', rest', heq, hp', hrun⟩
    · exact absurd ⟨rest', heq.symm⟩ (hp.not_char c)
    · rw [hrun, ih, hp.unique hp' heq]

/-- **What the reader makes of any bytes**: the text that they are read as. -/
theorem decodeLossy_eq_iff {bs : Bytes} {s : String} :
    decodeLossy bs = s ↔ ReadsAs bs s.toList := by
  constructor
  · rintro rfl
    rw [decodeLossy, String.toList_ofList]
    exact readsAs_run bs
  · intro h
    rw [decodeLossy, ← h.eq_run, String.ofList_toList]

end Utf8
end SimpleLedger
