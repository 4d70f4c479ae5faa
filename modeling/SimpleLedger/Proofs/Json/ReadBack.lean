import SimpleLedger.Json.Reader
import SimpleLedger.Json.Writer
import SimpleLedger.Proofs.Amount.Digits

/-!
# Documents hold what was written

`Json.compact` and `Json.parse?` are inverse to each other on the values that records are made of:
texts, integers, booleans, null, and lists and objects of these (`Json.Plain`).

* `pieces_escape`, `string_flatMap_escape`: however a character is escaped, it is read as itself,
  so that a text is read as it was written.
* `number_integer`: an integer is read as it was written, if what comes after it goes on with no
  digit, point or exponent (`Ends`).
* `Plain.readsBack`, by induction on the value: it is read from wherever it stands, and what comes
  after it is left.  The bound of the reader is compared with the length of what was written.
* `parse?_compact`: a document holds the value it was written from.
-/

set_option autoImplicit false

namespace SimpleLedger
namespace Json

open Reader (Piece)

variable {c e : Char} {rest : List Char}

/-! ## Strings -/

theorem unescape?_of_shortEscape? (h : Writer.shortEscape? c = some e) :
    Reader.unescape? e = some c ∧ e ≠ 'u' := by
  unfold Writer.shortEscape? at h
  split_ifs at h
  all_goals
    cases h
    subst c
    exact ⟨rfl, by decide⟩

theorem ne_of_shortEscape?_eq_none (h : Writer.shortEscape? c = none) : c ≠ '"' ∧ c ≠ '\\' := by
  unfold Writer.shortEscape? at h
  split_ifs at h with hquote hbackslash
  exact ⟨hquote, hbackslash⟩

/-- The four digits of a control character. -/
theorem unit?_digit {n : Nat} (h : n < 32) :
    Reader.unit? '0' '0' (Hex.digit (n / 16)) (Hex.digit (n % 16)) = some n := by
  have hall : ∀ m : Fin 32, Reader.unit? '0' '0' (Hex.digit (m / 16))
      (Hex.digit (m % 16)) = some m.val := by decide
  exact hall ⟨n, h⟩

theorem ofUnit_toNat (h : c.toNat < 0x20) : Piece.ofUnit c.toNat = .char c := by
  rw [Piece.ofUnit, if_neg (by omega), Char.ofNat_toNat]

/-- However a character is written, it is read as itself. -/
theorem pieces_escape (c : Char) (rest : List Char) :
    Reader.pieces (Writer.escape c ++ rest) =
      (Reader.pieces rest).map fun r => (.char c :: r.1, r.2) := by
  rw [Writer.escape]
  split
  next e he =>
    obtain ⟨hread, hne⟩ := unescape?_of_shortEscape? he
    rw [List.cons_append, List.cons_append, List.nil_append,
      Reader.pieces.eq_4 _ _ fun _ _ _ _ _ hu _ => hne hu, hread]
    cases Reader.pieces rest <;> rfl
  next hnone =>
  obtain ⟨hquote, hbackslash⟩ := ne_of_shortEscape?_eq_none hnone
  split
  next hlt =>
    simp only [List.cons_append, List.nil_append]
    rw [Reader.pieces.eq_3, unit?_digit hlt]
    rw [← ofUnit_toNat hlt]
    cases Reader.pieces rest <;> rfl
  next hge =>
    rw [List.cons_append, List.nil_append, Reader.pieces.eq_5 _ _ hquote
      (fun _ _ _ _ _ h _ => hbackslash h) (fun _ _ h _ => hbackslash h),
      if_neg (not_or.2 ⟨hge, hbackslash⟩)]
    cases Reader.pieces rest <;> rfl

theorem pieces_flatMap_escape (cs rest : List Char) :
    Reader.pieces (cs.flatMap Writer.escape ++ '"' :: rest) = some (cs.map .char, rest) := by
  induction cs with
  | nil => rw [List.flatMap_nil, List.nil_append, Reader.pieces.eq_2]; rfl
  | cons c cs ih => rw [List.flatMap_cons, List.append_assoc, pieces_escape, ih]; rfl

theorem join_map_char (cs : List Char) : Reader.join (cs.map .char) = some cs := by
  induction cs with
  | nil => rfl
  | cons c cs ih => rw [List.map_cons, Reader.join, ih]; rfl

/-- **A text is read as it was written.** -/
theorem string_flatMap_escape (s : String) (rest : List Char) :
    Reader.string (s.toList.flatMap Writer.escape ++ '"' :: rest) = some (some s, rest) := by
  rw [Reader.string, pieces_flatMap_escape]
  simp only [Option.bind_eq_bind, Option.bind_some, join_map_char, Option.map_some,
    String.ofList_toList]
  rfl

/-! ## Numbers -/

/-- Where a value ends: at the end of the text, or before a comma or a closing bracket. -/
def Ends (rest : List Char) : Prop := ∀ c ∈ rest.head?, c = ',' ∨ c = ']' ∨ c = '\x7d'

theorem digits_append {ds : List Char} (h : Digits ds) (hrest : Ends rest) :
    Reader.digits (ds ++ rest) = (ds, rest) := by
  have hstop : rest.takeWhile Char.isDigit = [] ∧ rest.dropWhile Char.isDigit = rest := by
    cases rest with
    | nil => exact ⟨rfl, rfl⟩
    | cons c rest =>
      have hc : c.isDigit = false := by
        rcases hrest c rfl with rfl | rfl | rfl <;> decide
      rw [List.takeWhile_cons, List.dropWhile_cons, hc]
      exact ⟨rfl, rfl⟩
  rw [Reader.digits, List.takeWhile_append_of_pos h, List.dropWhile_append_of_pos h, hstop.1,
    hstop.2, List.append_nil]

theorem fraction_of_ends (hrest : Ends rest) : Reader.fraction rest = some (none, rest) := by
  rw [Reader.fraction.eq_def]
  split
  next => rcases hrest '.' rfl with h | h | h <;> cases h
  next => rfl

theorem exponent_of_ends (hrest : Ends rest) : Reader.exponent rest = some (none, rest) := by
  rw [Reader.exponent.eq_def]
  split
  next => rcases hrest 'e' rfl with h | h | h <;> cases h
  next => rcases hrest 'E' rfl with h | h | h <;> cases h
  next => rfl

/-- The test for superfluous zeros. -/
theorem not_leading_zero {ds : List Char} (h : IsWhole ds) :
    ¬(ds.isEmpty || (ds.head? == some '0' && ds.length != 1)) = true := by
  obtain ⟨-, hne, hzero⟩ := h
  cases ds with
  | nil => exact absurd rfl hne
  | cons d ds =>
    by_cases hd : d = '0'
    · subst hd
      rw [hzero ds rfl]
      decide
    · simp [hd]

theorem number_of_sign {cs ds : List Char} {negative : Bool}
    (hsign : Reader.sign cs = (negative, ds ++ rest)) (hds : IsWhole ds) (hrest : Ends rest) :
    Reader.number cs = some (Number.ofParts negative ds none none, rest) := by
  rw [Reader.number, hsign]
  simp only [digits_append hds.digits hrest]
  rw [if_neg (not_leading_zero hds), fraction_of_ends hrest, Option.bind_eq_bind, Option.bind_some,
    exponent_of_ends hrest]
  rfl

theorem sign_of_isWhole {ds : List Char} (h : IsWhole ds) :
    Reader.sign (ds ++ rest) = (false, ds ++ rest) := by
  cases ds with
  | nil => exact absurd rfl h.ne_nil
  | cons d ds =>
    have hd : d ≠ '-' := by
      rintro rfl
      exact absurd (h.digits '-' List.mem_cons_self) (by decide)
    rw [List.cons_append, Reader.sign.eq_2 _ fun _ hcs => hd (List.cons.inj hcs).1]

/-- Only a negative zero is not taken for an integer. -/
theorem ofParts_toDigits {negative : Bool} {n : Nat} (h : negative = true → n ≠ 0) :
    Number.ofParts negative (Nat.toDigits 10 n) none none =
      .integer (if negative then -n else n) := by
  have hn : Nat.ofDigitChars 10 (Nat.toDigits 10 n) 0 = n :=
    Nat.ofDigitChars_toDigits (by decide) (by decide)
  have hzero : (negative && n == 0) = false := by
    cases negative with
    | false => rfl
    | true => exact beq_eq_false_iff_ne.2 (h rfl)
  rw [Number.ofParts, hn, hzero]
  rfl

/-- **An integer is read as it was written.** -/
theorem number_integer (n : Int) (hrest : Ends rest) :
    Reader.number (Writer.integer n ++ rest) = some (.integer n, rest) := by
  have hwhole := isWhole_toDigits n.natAbs
  rw [Writer.integer]
  split
  next hneg =>
    have hsign : Reader.sign (('-' :: Nat.toDigits 10 n.natAbs) ++ rest) =
        (true, Nat.toDigits 10 n.natAbs ++ rest) := rfl
    rw [number_of_sign hsign hwhole hrest, ofParts_toDigits fun _ => by omega, if_pos rfl,
      Int.ofNat_natAbs_of_nonpos (by omega), Int.neg_neg]
  next hneg =>
    rw [number_of_sign (sign_of_isWhole hwhole) hwhole hrest,
      ofParts_toDigits fun h => absurd h Bool.false_ne_true, if_neg Bool.false_ne_true,
      Int.natAbs_of_nonneg (by omega)]

/-! ## Values -/

/-- A value without halves of surrogate pairs and without numbers that are no integers. -/
inductive Plain : Json → Prop where
  | null : Plain .null
  | bool (b : Bool) : Plain (.bool b)
  | int (n : Int) : Plain (.int n)
  | text (s : String) : Plain (.text s)
  | arr {items : List Json} (h : ∀ j ∈ items, Plain j) : Plain (.arr items)
  | object {members : List (String × Json)} (h : ∀ m ∈ members, Plain m.2) :
      Plain (.object members)

/-- A written value is read as itself from wherever it stands, if the bound is large enough. -/
def ReadsBack (j : Json) : Prop :=
  ∀ bound rest, (Writer.value j).length ≤ bound → Ends rest →
    Reader.value bound (Writer.value j ++ rest) = some (j, rest)

theorem ends_nil : Ends [] := nofun

theorem ends_items (xs : List Json) (rest : List Char) : Ends (Writer.items xs ++ rest) := by
  cases xs with
  | nil => intro c hc; cases hc; exact .inr (.inl rfl)
  | cons x xs => intro c hc; cases hc; exact .inl rfl

theorem ends_members (ms : List (Option String × Json)) (rest : List Char) :
    Ends (Writer.members ms ++ rest) := by
  cases ms with
  | nil => intro c hc; cases hc; exact .inr (.inr rfl)
  | cons m ms => intro c hc; cases hc; exact .inl rfl

theorem skipBlank_cons (h : Reader.isBlank c = false) :
    Reader.skipBlank (c :: rest) = c :: rest := by
  rw [Reader.skipBlank, List.dropWhile_cons_of_neg (by rw [h]; exact Bool.false_ne_true)]

theorem readsBack_null : ReadsBack .null := by
  rintro (_ | bound) rest hbound -
  · cases hbound
  · rfl

theorem readsBack_bool (b : Bool) : ReadsBack (.bool b) := by
  rintro (_ | bound) rest hbound -
  · cases b <;> cases hbound
  · cases b <;> rfl

/-- What an integer can begin with. -/
def IsSignOrDigit (c : Char) : Prop := c = '-' ∨ c.isDigit = true

theorem IsSignOrDigit.ne {d : Char} (h : IsSignOrDigit c) (hminus : d ≠ '-')
    (hdigit : d.isDigit = false) : c ≠ d := by
  rintro rfl
  rcases h with h | h
  · exact hminus h
  · exact Bool.false_ne_true (hdigit.symm.trans h)

theorem exists_integer_eq_cons (n : Int) :
    ∃ c cs, Writer.integer n = c :: cs ∧ IsSignOrDigit c := by
  obtain ⟨hdigits, hne, -⟩ := isWhole_toDigits n.natAbs
  rw [Writer.integer]
  split
  next => exact ⟨_, _, rfl, .inl rfl⟩
  next =>
    obtain ⟨c, cs, h⟩ := List.exists_cons_of_ne_nil hne
    exact ⟨c, cs, h, .inr (hdigits c (by rw [h]; exact List.mem_cons_self))⟩

theorem IsSignOrDigit.isBlank (h : IsSignOrDigit c) : Reader.isBlank c = false := by
  simp only [Reader.isBlank, Bool.or_eq_false_iff, beq_eq_false_iff_ne]
  exact ⟨⟨⟨h.ne (by decide) rfl, h.ne (by decide) rfl⟩, h.ne (by decide) rfl⟩,
    h.ne (by decide) rfl⟩

/-- The characters of an integer are not taken for the beginning of anything else. -/
theorem value_of_isSignOrDigit (h : IsSignOrDigit c) (bound : Nat) :
    Reader.value (bound + 1) (c :: rest) =
      (Reader.number (c :: rest)).map fun r => (.num r.1, r.2) := by
  rw [Reader.value, skipBlank_cons h.isBlank]
  split
  case h_7 => cases Reader.number (c :: rest) <;> rfl
  -- each of the others begins with a character that is neither a sign nor a digit
  all_goals
    next heq => exact absurd (List.cons.inj heq).1 (h.ne (by decide) rfl)

theorem readsBack_int (n : Int) : ReadsBack (.int n) := by
  intro bound rest hbound hrest
  have hw : Writer.value (.int n) = Writer.integer n := by rw [int, Writer.value, Writer.number]
  obtain ⟨c, cs, hcs, hc⟩ := exists_integer_eq_cons n
  have hread := number_integer n hrest
  rw [hw, hcs] at hbound ⊢
  rw [hcs, List.cons_append] at hread
  obtain _ | bound := bound
  · cases hbound
  · rw [List.cons_append, value_of_isSignOrDigit hc, hread]
    rfl

theorem string_append (s : String) (rest : List Char) :
    Writer.string (some s) ++ rest = '"' :: (s.toList.flatMap Writer.escape ++ '"' :: rest) := by
  rw [Writer.string, List.append_assoc]
  rfl

theorem readsBack_text (s : String) : ReadsBack (.text s) := by
  rintro (_ | bound) rest hbound -
  · cases hbound
  · rw [text, Writer.value, string_append, Reader.value, skipBlank_cons rfl]
    simp only [string_flatMap_escape, Option.bind_eq_bind, Option.bind_some]
    rfl

/-! ### One step of the reader -/

section

variable {bound : Nat} {cs rest' : List Char} {x : Json} {xs : List Json} {key : String}
  {ms : List (Option String × Json)}

theorem items_last (h : Reader.value bound cs = some (x, ']' :: rest)) :
    Reader.items (bound + 1) cs = some ([x], rest) := by
  rw [Reader.items, h, Option.bind_eq_bind, Option.bind_some]
  simp only [skipBlank_cons (rfl : Reader.isBlank ']' = false)]
  rfl

theorem items_more (h : Reader.value bound cs = some (x, ',' :: rest))
    (hxs : Reader.items bound rest = some (xs, rest')) :
    Reader.items (bound + 1) cs = some (x :: xs, rest') := by
  rw [Reader.items, h, Option.bind_eq_bind, Option.bind_some]
  simp only [skipBlank_cons (rfl : Reader.isBlank ',' = false), hxs]
  rfl

theorem members_last (h : Reader.value bound cs = some (x, '\x7d' :: rest)) :
    Reader.members (bound + 1) (Writer.string (some key) ++ ':' :: cs) =
      some ([(some key, x)], rest) := by
  rw [string_append, Reader.members, skipBlank_cons rfl]
  simp only [string_flatMap_escape, Option.bind_eq_bind, Option.bind_some,
    skipBlank_cons (rfl : Reader.isBlank ':' = false), h,
    skipBlank_cons (rfl : Reader.isBlank '\x7d' = false)]
  rfl

theorem members_more (h : Reader.value bound cs = some (x, ',' :: rest))
    (hms : Reader.members bound rest = some (ms, rest')) :
    Reader.members (bound + 1) (Writer.string (some key) ++ ':' :: cs) =
      some ((some key, x) :: ms, rest') := by
  rw [string_append, Reader.members, skipBlank_cons rfl]
  simp only [string_flatMap_escape, Option.bind_eq_bind, Option.bind_some,
    skipBlank_cons (rfl : Reader.isBlank ':' = false), h,
    skipBlank_cons (rfl : Reader.isBlank ',' = false), hms]
  rfl

end

/-- The items of an array, if each is read as itself. -/
theorem items_readsBack {xs : List Json} (hxs : ∀ j ∈ xs, ReadsBack j) :
    ∀ {x : Json}, ReadsBack x → ∀ bound rest,
      (Writer.value x).length + (Writer.items xs).length ≤ bound →
      Reader.items bound (Writer.value x ++ (Writer.items xs ++ rest)) = some (x :: xs, rest) := by
  induction xs with
  | nil =>
    intro x hx bound rest hbound
    rw [Writer.items, List.length_singleton] at hbound
    obtain ⟨bound, rfl⟩ := Nat.exists_eq_succ_of_ne_zero (by omega : bound ≠ 0)
    exact items_last (hx bound _ (by omega) (ends_items [] rest))
  | cons y ys ih =>
    intro x hx bound rest hbound
    rw [List.forall_mem_cons] at hxs
    simp only [Writer.items, List.length_append, List.length_cons] at hbound
    obtain ⟨bound, rfl⟩ := Nat.exists_eq_succ_of_ne_zero (by omega : bound ≠ 0)
    have hx := hx bound (Writer.items (y :: ys) ++ rest) (by omega) (ends_items (y :: ys) rest)
    rw [Writer.items, List.append_assoc, List.cons_append] at hx ⊢
    exact items_more hx (ih hxs.2 hxs.1 bound rest (by omega))

/-- A member as it stands in an object. -/
def named (m : String × Json) : Option String × Json := (some m.1, m.2)

theorem object_eq (members : List (String × Json)) : object members = .obj (members.map named) :=
  rfl

/-- The members of an object, if each has a value that is read as itself. -/
theorem members_readsBack {ms : List (String × Json)} (hms : ∀ m ∈ ms, ReadsBack m.2) :
    ∀ {m : String × Json}, ReadsBack m.2 → ∀ bound rest,
      (Writer.value m.2).length + (Writer.members (ms.map named)).length ≤ bound →
      Reader.members bound (Writer.string (some m.1) ++
          ':' :: (Writer.value m.2 ++ (Writer.members (ms.map named) ++ rest))) =
        some ((m :: ms).map named, rest) := by
  induction ms with
  | nil =>
    intro m hm bound rest hbound
    rw [List.map_nil, Writer.members, List.length_singleton] at hbound
    obtain ⟨bound, rfl⟩ := Nat.exists_eq_succ_of_ne_zero (by omega : bound ≠ 0)
    exact members_last (hm bound _ (by omega) (ends_members [] rest))
  | cons n ns ih =>
    intro m hm bound rest hbound
    rw [List.forall_mem_cons] at hms
    simp only [List.map_cons, named, Writer.members, List.length_append, List.length_cons] at hbound
    obtain ⟨bound, rfl⟩ := Nat.exists_eq_succ_of_ne_zero (by omega : bound ≠ 0)
    have hm := hm bound (Writer.members ((n :: ns).map named) ++ rest) (by omega)
      (ends_members _ rest)
    have hns := ih hms.2 hms.1 bound rest (by omega)
    rw [List.map_cons, named, Writer.members] at hm ⊢
    simp only [List.append_assoc, List.cons_append] at hm ⊢
    exact members_more hm hns

/-- What a value can begin with is neither blank nor the end of an array. -/
theorem exists_value_eq_cons {j : Json} (h : Plain j) :
    ∃ c cs, Writer.value j = c :: cs ∧ Reader.isBlank c = false ∧ c ≠ ']' := by
  cases h with
  | null => exact ⟨_, _, rfl, rfl, by decide⟩
  | bool b => cases b <;> exact ⟨_, _, rfl, rfl, by decide⟩
  | int n =>
    obtain ⟨c, cs, hcs, hc⟩ := exists_integer_eq_cons n
    exact ⟨c, cs, hcs, hc.isBlank, hc.ne (by decide) rfl⟩
  | text s => exact ⟨_, _, rfl, rfl, by decide⟩
  | @arr items => cases items <;> exact ⟨_, _, rfl, rfl, by decide⟩
  | @object members => cases members <;> exact ⟨_, _, rfl, rfl, by decide⟩

theorem value_bracket {bound : Nat} {cs : List Char} {xs : List Json}
    (hblank : Reader.isBlank c = false) (hc : c ≠ ']')
    (h : Reader.items bound (c :: cs) = some (xs, rest)) :
    Reader.value (bound + 1) ('[' :: c :: cs) = some (.arr xs, rest) := by
  rw [Reader.value, skipBlank_cons rfl]
  simp only [skipBlank_cons hblank]
  split
  next heq => exact absurd (List.cons.inj heq).1 hc
  next => rw [h]; rfl

theorem value_brace {bound : Nat} {cs : List Char} {ms : List (Option String × Json)}
    (h : Reader.members bound ('"' :: cs) = some (ms, rest)) :
    Reader.value (bound + 1) ('\x7b' :: '"' :: cs) = some (.obj ms, rest) := by
  rw [Reader.value, skipBlank_cons rfl]
  simp only [skipBlank_cons (rfl : Reader.isBlank '"' = false)]
  split
  next heq => exact absurd (List.cons.inj heq).1 (by decide)
  next => rw [h]; rfl

theorem readsBack_arr {xs : List Json} (hplain : ∀ j ∈ xs, Plain j) (h : ∀ j ∈ xs, ReadsBack j) :
    ReadsBack (.arr xs) := by
  rintro (_ | bound) rest hbound -
  · cases xs <;> cases hbound
  · cases xs with
    | nil => rfl
    | cons x xs =>
      rw [List.forall_mem_cons] at h
      obtain ⟨c, cs, hcs, hblank, hc⟩ := exists_value_eq_cons (hplain x List.mem_cons_self)
      rw [Writer.value, List.cons_append, List.length_cons, List.length_append] at hbound
      have hitems := items_readsBack h.2 h.1 bound rest (by omega)
      rw [Writer.value, List.append_assoc, List.cons_append]
      rw [hcs, List.cons_append] at hitems ⊢
      exact value_bracket hblank hc hitems

theorem readsBack_object {ms : List (String × Json)} (h : ∀ m ∈ ms, ReadsBack m.2) :
    ReadsBack (.object ms) := by
  rintro (_ | bound) rest hbound -
  · cases ms <;> cases hbound
  · cases ms with
    | nil => rfl
    | cons m ms =>
      rw [List.forall_mem_cons] at h
      have hw : Writer.value (.object (m :: ms)) ++ rest =
          '\x7b' :: (Writer.string (some m.1) ++
            ':' :: (Writer.value m.2 ++ (Writer.members (ms.map named) ++ rest))) := by
        rw [object_eq, List.map_cons, named, Writer.value]
        simp only [List.append_assoc, List.cons_append]
      have hlen : (Writer.value m.2).length + (Writer.members (ms.map named)).length ≤ bound := by
        rw [object_eq, List.map_cons, named, Writer.value] at hbound
        simp only [List.append_assoc, List.cons_append, List.length_append,
          List.length_cons] at hbound
        omega
      have hmembers := members_readsBack h.2 h.1 bound rest hlen
      rw [hw]
      rw [string_append] at hmembers ⊢
      exact value_brace hmembers

/-- **A value without surrogates and fractions is read as it was written.** -/
theorem Plain.readsBack {j : Json} (h : Plain j) : ReadsBack j := by
  induction h with
  | null => exact readsBack_null
  | bool b => exact readsBack_bool b
  | int n => exact readsBack_int n
  | text s => exact readsBack_text s
  | arr h ih => exact readsBack_arr h ih
  | object _ ih => exact readsBack_object ih

/-- **A document holds the value it was written from.** -/
theorem parse?_compact {j : Json} (h : Plain j) : parse? (compact j) = some j := by
  have hread := h.readsBack (2 * (Writer.value j).length + 2) [] (by omega) ends_nil
  rw [List.append_nil] at hread
  rw [parse?, compact, String.toList_ofList]
  simp only [hread]
  rfl

end Json
end SimpleLedger
