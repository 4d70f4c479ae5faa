import Mathlib
import SimpleLedger.Json.Shape
import SimpleLedger.Proofs.Json.ReadBack

/-!
# Views of what was written

`Json.Inverts read write` says that `read` makes a value again of what `write` made of it.  There
is one such result for each shape that data are exchanged in, so that a record reads back if its
fields do.

* `inverts_text`, `inverts_uint64`, `inverts_satoshi` and their like: scalars over their whole
  range.
* `Inverts.list`, `Inverts.nullable`, `inverts_choice`: lists, values that may be missing, names.
* `record?_object`, `Inverts.required`, `Inverts.withDefault`, `Inverts.optional`: an object with
  the fields of a record is that record, and a field that is there is read as itself.  If all
  fields are there, none takes its default (`Record.IsExplicit`).
* `tagged?_object`: an object that begins with the name of a choice is the choice with the other
  members as its data.  What is held back meanwhile has to be in the range of doubles, which
  every number of 64 bits is (`Number.isDouble_integer`).
-/

set_option autoImplicit false

namespace SimpleLedger
namespace Json

/-! ## Numbers in the range of doubles -/

namespace Number

theorem absorb_eq {s : Nat} {ds : List Char} (h : Nat.ofDigitChars 10 ds s < UInt64.size) :
    absorb s ds = (Nat.ofDigitChars 10 ds s, []) := by
  induction ds generalizing s with
  | nil => rfl
  | cons d ds ih =>
    rw [Nat.ofDigitChars_cons] at h
    have hnext : 10 * s + (d.toNat - '0'.toNat) < UInt64.size := by
      refine Nat.lt_of_le_of_lt ?_ h
      rw [Nat.ofDigitChars_eq_ofDigitChars_zero]
      exact (Nat.le_mul_of_pos_left _ (by positivity)).trans (Nat.le_add_right _ _)
    rw [absorb, if_pos hnext, ih h, Nat.ofDigitChars_cons]

theorem nearest_le (n : Nat) : nearest n ≤ 2 * n + 1 := by
  have hunit : 1 <<< (n.log2 - 52) ≤ n + 1 := by
    rw [Nat.shiftLeft_eq, Nat.one_mul]
    rcases Nat.eq_zero_or_pos n with rfl | hn
    · decide
    · have := Nat.log2_self_le hn.ne'
      have := Nat.pow_le_pow_right (n := 2) (by decide) (Nat.sub_le n.log2 52)
      omega
  have hle := Nat.div_mul_le_self n (1 <<< (n.log2 - 52))
  rw [nearest]
  split
  next => rw [Nat.add_mul]; omega
  next => omega

/-- An integer of 64 bits is not beyond any double. -/
theorem isDouble_integer {n : Int} (h : n.natAbs < UInt64.size) : (integer n).isDouble = true := by
  have hval : Nat.ofDigitChars 10 (Nat.toDigits 10 n.natAbs) 0 = n.natAbs :=
    Nat.ofDigitChars_toDigits (by decide) (by decide)
  have hscale : scale (Nat.toDigits 10 n.natAbs) [] = (UInt64.ofNat n.natAbs, 0) := by
    rw [scale, absorb_eq (by rw [hval]; exact h), hval]
    rfl
  have hbound : nearest (UInt64.ofNat n.natAbs).toNat * nearest (Nat.pow 10 0) < bound := by
    have hone : nearest (Nat.pow 10 0) = 1 := by decide
    have hle := nearest_le (UInt64.ofNat n.natAbs).toNat
    have hlt := (UInt64.ofNat n.natAbs).toNat_lt
    have hbig : 2 * 2 ^ 64 + 1 < bound := by decide +kernel
    rw [hone]
    omega
  rw [isDouble, hscale]
  simp only [inRange]
  rw [Int.toNat_zero, decide_eq_true hbound]
  simp [maxPower]

end Number

/-! ## Readers and writers that are inverse to each other -/

/-- What `write` makes of a value is plain, and `read` makes the value of it again. -/
structure Inverts {α : Type} (read : Json → Option α) (write : α → Json) : Prop where
  plain : ∀ a, Plain (write a)
  read_write : ∀ a, read (write a) = some a

variable {α : Type} {read : Json → Option α} {write : α → Json}

/-- Reading a document gives what was written. -/
theorem Inverts.parse?_bind (h : Inverts read write) (a : α) :
    (parse? (compact (write a))).bind read = some a := by
  rw [parse?_compact (h.plain a), Option.bind_some, h.read_write]

/-! ### Scalars -/

theorem inverts_text : Inverts text? text := ⟨.text, fun _ => rfl⟩

theorem inverts_bool : Inverts bool? .bool := ⟨.bool, fun _ => rfl⟩

theorem below?_nat {bound n : Nat} (h : n < bound) : below? bound (.nat n) = some n := by
  have hn : (0 : Int) ≤ n ∧ (n : Int) < bound := ⟨Int.natCast_nonneg n, Int.ofNat_lt.2 h⟩
  rw [below?, nat, int, int?, Option.bind_eq_bind, Option.bind_some, if_pos hn, Int.toNat_natCast]

theorem inverts_uint8 : Inverts uint8? fun b => .nat b.toNat where
  plain _ := .int _
  read_write b := by rw [uint8?, below?_nat b.toNat_lt, Option.map_some, UInt8.ofNat_toNat]

theorem inverts_uint32 : Inverts uint32? fun n => .nat n.toNat where
  plain _ := .int _
  read_write n := by rw [uint32?, below?_nat n.toNat_lt, Option.map_some, UInt32.ofNat_toNat]

theorem inverts_uint64 : Inverts uint64? fun n => .nat n.toNat where
  plain _ := .int _
  read_write n := by rw [uint64?, below?_nat n.toNat_lt, Option.map_some, UInt64.ofNat_toNat]

theorem inverts_satoshi : Inverts satoshi? fun s => .int s.toInt where
  plain _ := .int _
  read_write _ := Satoshi.ofInt?_eq_some_iff.2 rfl

/-! ### Lists, null, names -/

theorem Inverts.list (h : Inverts read write) : Inverts (list? read) (list write) where
  plain xs := .arr fun j hj => by
    obtain ⟨a, -, rfl⟩ := List.mem_map.1 hj
    exact h.plain a
  read_write xs := by
    rw [Json.list, list?]
    induction xs with
    | nil => rfl
    | cons a xs ih =>
      rw [List.map_cons, List.mapM_cons, h.read_write, ih]
      rfl

/-- Nothing but the missing value may be written as null. -/
theorem Inverts.nullable (h : Inverts read write) (hnull : ∀ a, write a ≠ .null) :
    Inverts (nullable? read) (nullable write) where
  plain
    | none => .null
    | some a => h.plain a
  read_write
    | none => rfl
    | some a => by rw [Json.nullable, nullable?.eq_2 _ _ (hnull a), h.read_write]; rfl

theorem inverts_nullable_uint8 :
    Inverts (nullable? uint8?) (nullable fun b : UInt8 => .nat b.toNat) :=
  inverts_uint8.nullable nofun

theorem inverts_choice {name : α → String} {ofName? : String → Option α}
    (h : ∀ a, ofName? (name a) = some a) :
    Inverts (choice? ofName?) fun a => .text (name a) where
  plain _ := .text _
  read_write := h

/-! ### Records -/

theorem texts?_named (ms : List (String × Json)) : texts? (ms.map named) = some ms := by
  rw [texts?]
  induction ms with
  | nil => rfl
  | cons m ms ih =>
    rw [List.map_cons, List.mapM_cons, ih]
    rfl

/-- An object with exactly the given fields is a record of all of them. -/
theorem record?_object {names : List String} {ms : List (String × Json)}
    (hnames : ms.map Prod.fst = names) (hnodup : names.Nodup) :
    (object ms).record? names = some ⟨true, ms⟩ := by
  have hall : ms.filter (fun m => names.contains m.1) = ms := by
    rw [List.filter_eq_self]
    intro m hm
    rw [List.contains_iff_mem, ← hnames]
    exact List.mem_map_of_mem hm
  rw [object_eq, record?, texts?_named, Option.bind_eq_bind, Option.bind_some]
  simp only [hall, hnames, if_pos hnodup]

section

variable {a : α} {r : Record} {name : String}

theorem Inverts.required (h : Inverts read write)
    (hj : r.fields.lookup name = some (write a)) : r.required name read = some a := by
  rw [Record.required, hj, Option.bind_some, h.read_write]

theorem Inverts.withDefault (h : Inverts read write) {fallback : α}
    (hj : r.fields.lookup name = some (write a)) :
    r.withDefault name read fallback = some a := by
  rw [Record.withDefault, hj]
  exact h.read_write a

theorem Inverts.optional {o : Option α} (h : Inverts (nullable? read) (Json.nullable write))
    (hj : r.fields.lookup name = some (Json.nullable write o)) :
    r.optional name read = some o := by
  rw [Record.optional, hj]
  exact h.read_write o

end

/-- None of the fields takes its default. -/
def Record.IsExplicit (names : List String) (r : Record) : Prop :=
  ∀ name ∈ names, ∀ {β : Type} (read : Json → Option β) (fallback : β),
    r.withDefault name read fallback = r.required name read

theorem Record.isExplicit_of_map_fst {names : List String} {r : Record}
    (h : r.fields.map Prod.fst = names) : r.IsExplicit names := by
  intro name hname β read fallback
  rw [← h] at hname
  obtain ⟨m, hm, rfl⟩ := List.mem_map.1 hname
  obtain ⟨j, hj⟩ := Option.isSome_iff_exists.1
    (List.lookup_isSome_iff.2 ⟨m, hm, beq_self_eq_true m.1⟩)
  rw [Record.withDefault, Record.required, hj, Option.bind_some]

/-! ### Choices with data -/

theorem fitsMembers_named {room : Nat} {ms : List (String × Json)}
    (h : ∀ m ∈ ms, m.2.fits room = true) : fitMembers room (ms.map named) = true := by
  induction ms with
  | nil => rfl
  | cons m ms ih =>
    rw [List.forall_mem_cons] at h
    rw [List.map_cons, named, fitMembers, h.1, ih h.2]
    rfl

/-- Only the first member is the name of the choice. -/
theorem partition_named {tag : Json} {ms : List (String × Json)} (h : ∀ m ∈ ms, m.1 ≠ "type") :
    ((("type", tag) :: ms).map named).partition (fun m => m.1 == some "type") =
      ([(some "type", tag)], ms.map named) := by
  have hne : ∀ m ∈ ms.map named, (m.1 == some "type") = false := by
    intro m hm
    obtain ⟨m, hmem, rfl⟩ := List.mem_map.1 hm
    exact beq_eq_false_iff_ne.2 fun heq => h m hmem (Option.some.inj heq)
  have hnone : (ms.map named).filter (fun m => m.1 == some "type") = [] :=
    List.filter_eq_nil_iff.2 fun m hm => by simp [hne m hm]
  have hall : (ms.map named).filter (not ∘ fun m => m.1 == some "type") = ms.map named :=
    List.filter_eq_self.2 fun m hm => by simp [hne m hm]
  rw [List.partition_eq_filter_filter, List.map_cons, List.filter_cons_of_pos (by rfl), hnone,
    List.filter_cons_of_neg Bool.false_ne_true, hall]
  rfl

/-- An object is named by its first member, if the data can be held back. -/
theorem tagged?_object {nesting : Nat} {tag : String} {ms : List (String × Json)}
    (hroom : nesting < maxNesting) (hnames : ∀ m ∈ ms, m.1 ≠ "type")
    (hms : ∀ m ∈ ms, m.2.fits (maxNesting - nesting - 1) = true) :
    (object (("type", .text tag) :: ms)).tagged? nesting = some (tag, .object ms) := by
  have hfits : (object (("type", .text tag) :: ms)).fits (maxNesting - nesting) = true := by
    rw [object_eq, fits, fitsMembers_named (List.forall_mem_cons.2 ⟨rfl, hms⟩), Bool.and_true,
      decide_eq_true (Nat.sub_pos_of_lt hroom)]
  rw [object_eq] at hfits
  rw [object_eq, tagged?, if_pos hfits, partition_named hnames]
  rfl

end Json
end SimpleLedger
