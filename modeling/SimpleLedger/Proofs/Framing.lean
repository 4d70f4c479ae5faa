import SimpleLedger.Proofs.Bytes
import SimpleLedger.Proofs.Error
import SimpleLedger.Script

/-!
# The framing of scripts

Which byte strings are scripts, said without the reader: `IsHeader n h` lists the four ways to
announce `n` bytes, `Pushes s cs` puts a header before each chunk, and `Frames s cs` adds the
opcode in front.

* `chunks_eq_ok_iff`: the reader accepts exactly what is framed, and finds exactly the chunks.
* `frames_ofChunks`: what is written frames the chunks, where their lengths fit four bytes.
* `IsHeader.eq_or_length_lt`, `Pushes.eq_or_length_lt`: a header or a piece of script is the one
  that is written, or it is longer.
* `framing_exact` is both together.

Both directions rest on `isHeader_iff`, which says that a header is whatever the reader takes for
one: an opcode that says how many bytes of length follow, and these bytes.
-/

set_option autoImplicit false

namespace SimpleLedger
namespace Script

/-! ## The grammar -/

/-- The ways to announce `n` bytes of data. -/
inductive IsHeader (n : Nat) : Bytes → Prop where
  | direct (h1 : 1 ≤ n) (h : n ≤ 75) : IsHeader n [UInt8.ofNat n]
  | one (h : n < 2 ^ 8) : IsHeader n (0x4c :: Bytes.littleEndian 1 n)
  | two (h : n < 2 ^ 16) : IsHeader n (0x4d :: Bytes.littleEndian 2 n)
  | four (h : n < 2 ^ 32) : IsHeader n (0x4e :: Bytes.littleEndian 4 n)

/-- A piece of script, and the chunks that it pushes. -/
inductive Pushes : Bytes → List Bytes → Prop where
  | nil : Pushes [] []
  | cons {header chunk script : Bytes} {chunks : List Bytes} (first : IsHeader chunk.length header)
      (others : Pushes script chunks) : Pushes (header ++ chunk ++ script) (chunk :: chunks)

/-- A whole script, and the chunks that it pushes. -/
def Frames (script : Bytes) (chunks : List Bytes) : Prop :=
  ∃ body, script = 0x6a :: body ∧ Pushes body chunks

/-! ## Headers -/

/-- The number of data bytes that a push announces. -/
def announced (opcode : UInt8) (len : Bytes) : Nat :=
  if len.length = 0 then opcode.toNat else Bytes.ofLittleEndian len

theorem lengthBytes?_ofNat {n : Nat} (h0 : n ≠ 0) (h : n ≤ 75) :
    lengthBytes? (UInt8.ofNat n) = some 0 := by
  have hall : ∀ m : Fin 76, m.val ≠ 0 → lengthBytes? (UInt8.ofNat m) = some 0 := by decide
  exact hall ⟨n, by omega⟩ h0

/-- A header is an opcode and the bytes of length that the opcode asks for. -/
theorem isHeader_iff {n : Nat} {header : Bytes} :
    IsHeader n header ↔ ∃ opcode len, header = opcode :: len ∧
      lengthBytes? opcode = some len.length ∧ announced opcode len = n := by
  constructor
  · intro h
    cases h with
    | direct h1 h =>
      refine ⟨_, _, rfl, lengthBytes?_ofNat (by omega) h, ?_⟩
      rw [announced, List.length_nil, if_pos rfl, UInt8.toNat_ofNat', Nat.mod_eq_of_lt (by omega)]
    | one h => exact ⟨_, _, rfl, rfl, Bytes.ofLittleEndian_littleEndian_of_lt (by omega)⟩
    | two h => exact ⟨_, _, rfl, rfl, Bytes.ofLittleEndian_littleEndian_of_lt (by omega)⟩
    | four h => exact ⟨_, _, rfl, rfl, Bytes.ofLittleEndian_littleEndian_of_lt (by omega)⟩
  · rintro ⟨opcode, len, rfl, hk, rfl⟩
    have hlt := Bytes.ofLittleEndian_lt len
    have hback := Bytes.littleEndian_ofLittleEndian len
    rw [announced]
    rw [lengthBytes?] at hk
    split at hk
    next hrange =>
      cases List.length_eq_zero_iff.1 (Option.some.inj hk).symm
      rw [UInt8.le_iff_toNat_le, UInt8.le_iff_toNat_le] at hrange
      have h := IsHeader.direct hrange.1 hrange.2
      rwa [UInt8.ofNat_toNat] at h
    next =>
    -- where bytes of length follow, they are the digits of what they announce
    split at hk
    next hop =>
      rw [← Option.some.inj hk] at hlt hback ⊢
      have h := IsHeader.one hlt
      rwa [hback, ← hop] at h
    next =>
    split at hk
    next hop =>
      rw [← Option.some.inj hk] at hlt hback ⊢
      have h := IsHeader.two hlt
      rwa [hback, ← hop] at h
    next =>
    split at hk
    next hop =>
      rw [← Option.some.inj hk] at hlt hback ⊢
      have h := IsHeader.four hlt
      rwa [hback, ← hop] at h
    next => cases hk

/-- The header that is written is one of them. -/
theorem isHeader_header {n : Nat} (h : n < 2 ^ 32) : IsHeader n (header n) := by
  rw [header]
  split_ifs with h0 h75 h255 h16
  · rw [h0]
    exact .one (by decide)
  · exact .direct (Nat.pos_of_ne_zero h0) h75
  · exact .one (by omega)
  · exact .two (by omega)
  · exact .four h

theorem length_header (n : Nat) :
    (header n).length =
      if n = 0 then 2 else if n ≤ 75 then 1 else if n ≤ 255 then 2 else if n ≤ 65535 then 3
      else 5 := by
  rw [header]
  split_ifs <;> simp

/-- **The header that is written is the shortest one.** -/
theorem IsHeader.eq_or_length_lt {n : Nat} {h : Bytes} (hh : IsHeader n h) :
    h = header n ∨ (header n).length < h.length := by
  cases hh with
  | direct h1 h => exact .inl (by rw [header, if_neg (by omega), if_pos h])
  | one h =>
    by_cases h0 : n = 0
    · exact .inl (by subst h0; rfl)
    by_cases h75 : n ≤ 75
    · right
      rw [length_header, if_neg h0, if_pos h75, List.length_cons, Bytes.length_littleEndian]
      decide
    · left
      rw [header, if_neg h0, if_neg h75, if_pos (by omega)]
      rfl
  | two h =>
    by_cases h255 : n ≤ 255
    · right
      rw [length_header, List.length_cons, Bytes.length_littleEndian]
      split_ifs <;> decide
    · left
      rw [header, if_neg (by omega), if_neg (by omega), if_neg h255, if_pos (by omega)]
  | four h =>
    by_cases h16 : n ≤ 65535
    · right
      rw [length_header, List.length_cons, Bytes.length_littleEndian]
      split_ifs <;> decide
    · left
      rw [header, if_neg (by omega), if_neg (by omega), if_neg (by omega), if_neg h16]

theorem IsHeader.lt {n : Nat} {h : Bytes} (hh : IsHeader n h) : n < 2 ^ 32 := by
  cases hh <;> omega

/-! ## Reading -/

/-- Reading a push, whichever way its length is given. -/
theorem chunksAt_push_of_length {opcode : UInt8} {len data : Bytes} (pos : Nat) (rest : Bytes)
    (hk : lengthBytes? opcode = some len.length) (hn : announced opcode len = data.length) :
    chunksAt pos (opcode :: (len ++ (data ++ rest))) =
      (chunksAt (pos + (1 + len.length + data.length)) rest).map (data :: ·) := by
  rw [announced] at hn
  rw [chunksAt, hk]
  simp only [List.take_left, List.drop_left, Nat.lt_irrefl, if_false, hn]
  rw [show pos + 1 + len.length + data.length = pos + (1 + len.length + data.length) by omega]
  cases chunksAt (pos + (1 + len.length + data.length)) rest <;> rfl

/-- What the reader accepts is framed. -/
theorem pushes_of_chunksAt {pos : Nat} {s : Bytes} :
    ∀ {cs : List Bytes}, chunksAt pos s = .ok cs → Pushes s cs := by
  fun_induction chunksAt pos s with
  | case1 => intro cs h; cases h; exact .nil
  | case2 => exact nofun
  | case3 => exact nofun
  | case4 => exact nofun
  | case5 pos opcode rest k hk hlen n data hdata =>
    rename_i ih
    intro cs h
    obtain ⟨cs', hcs, h⟩ := bind_eq_ok_iff.1 h
    cases h
    have hlen : (rest.take k).length = k :=
      Nat.le_antisymm (List.length_take_le k rest) (Nat.le_of_not_lt hlen)
    have hdata : data.length = n :=
      Nat.le_antisymm (List.length_take_le n _) (Nat.le_of_not_lt hdata)
    have hn : announced opcode (rest.take k) = data.length := by
      rw [announced, hlen, hdata]
      rfl
    have hheader : IsHeader data.length (opcode :: rest.take k) :=
      isHeader_iff.2 ⟨opcode, rest.take k, rfl, by rw [hlen, hk], hn⟩
    have h := Pushes.cons hheader (ih hcs)
    rwa [List.append_assoc, List.take_append_drop, List.cons_append,
      List.take_append_drop] at h

/-- What is framed is read as its chunks. -/
theorem Pushes.chunksAt_eq {s : Bytes} {cs : List Bytes} (h : Pushes s cs) (pos : Nat) :
    chunksAt pos s = .ok cs := by
  induction h generalizing pos with
  | nil => rw [chunksAt]
  | cons first _ ih =>
    obtain ⟨opcode, len, rfl, hk, hn⟩ := isHeader_iff.1 first
    rw [List.append_assoc, List.cons_append, chunksAt_push_of_length pos _ hk hn, ih]
    rfl

/-- **The reader accepts exactly what is framed**, and finds exactly the chunks. -/
theorem chunks_eq_ok_iff {s : Bytes} {cs : List Bytes} : chunks s = .ok cs ↔ Frames s cs := by
  constructor
  · intro h
    cases s with
    | nil => cases h
    | cons opcode body =>
      rw [chunks] at h
      split at h
      next hop => exact ⟨body, by rw [hop]; rfl, pushes_of_chunksAt h⟩
      next => cases h
  · rintro ⟨body, rfl, h⟩
    rw [chunks]
    exact h.chunksAt_eq 1

theorem Pushes.length_lt {s : Bytes} {cs : List Bytes} (h : Pushes s cs) :
    ∀ c ∈ cs, c.length < 2 ^ 32 := by
  induction h with
  | nil => exact nofun
  | cons first _ ih => exact List.forall_mem_cons.2 ⟨first.lt, ih⟩

/-! ## Writing -/

theorem pushes_flatMap_push {cs : List Bytes} (h : ∀ c ∈ cs, c.length < 2 ^ 32) :
    Pushes (cs.flatMap push) cs := by
  induction cs with
  | nil => exact .nil
  | cons c cs ih =>
    rw [List.forall_mem_cons] at h
    rw [List.flatMap_cons, push]
    exact .cons (isHeader_header h.1) (ih h.2)

theorem frames_ofChunks {cs : List Bytes} (h : ∀ c ∈ cs, c.length < 2 ^ 32) :
    Frames (ofChunks cs) cs :=
  ⟨_, rfl, pushes_flatMap_push h⟩

/-- Chunks that some script pushes can be written. -/
theorem Frames.frames_ofChunks {s : Bytes} {cs : List Bytes} (h : Frames s cs) :
    Frames (ofChunks cs) cs := by
  obtain ⟨body, -, h⟩ := h
  exact Script.frames_ofChunks h.length_lt

/-- A chunk is no longer than a script that pushes it. -/
theorem length_le_length_ofChunks {cs : List Bytes} {c : Bytes} (h : c ∈ cs) :
    c.length ≤ (ofChunks cs).length := by
  have hpush : c.Sublist (push c) := List.sublist_append_right _ _
  have hmem : (push c).Sublist (cs.flatMap push) := by
    rw [List.flatMap_def]
    exact List.sublist_flatten_of_mem (List.mem_map_of_mem h)
  rw [ofChunks, List.length_cons]
  have hle := (hpush.trans hmem).length_le
  omega

/-- A piece of script is the one that is written, or longer. -/
theorem Pushes.eq_or_length_lt {s : Bytes} {cs : List Bytes} (h : Pushes s cs) :
    s = cs.flatMap push ∨ (cs.flatMap push).length < s.length := by
  induction h with
  | nil => exact .inl rfl
  | @cons header c s cs first _ ih =>
    simp only [List.flatMap_cons, push, List.length_append]
    rcases first.eq_or_length_lt, ih with ⟨rfl | hheader, rfl | hrest⟩
    · exact .inl rfl
    · right; omega
    · right; omega
    · right; omega

/-- **The script that is written is the shortest one**, and the only one of its length. -/
theorem Frames.eq_or_length_lt {s : Bytes} {cs : List Bytes} (h : Frames s cs) :
    s = ofChunks cs ∨ (ofChunks cs).length < s.length := by
  obtain ⟨body, rfl, h⟩ := h
  rcases h.eq_or_length_lt with rfl | hlt
  · exact .inl rfl
  · exact .inr (Nat.succ_lt_succ hlt)

/-- **Reading and writing match the framing.**  A script is read as some chunks if and only if it
frames them, and every other byte string is refused.  Of the scripts that are read as some chunks,
the one that is written for them is the only shortest one. -/
theorem framing_exact :
    (∀ s cs, chunks s = .ok cs ↔ Frames s cs) ∧
    (∀ cs : List Bytes, (∀ c ∈ cs, c.length < 2 ^ 32) → chunks (ofChunks cs) = .ok cs ∧
      ∀ s, chunks s = .ok cs → s = ofChunks cs ∨ (ofChunks cs).length < s.length) ∧
    ∀ s, (¬∃ cs, Frames s cs) → ∃ e, chunks s = .error e := by
  refine ⟨fun _ _ => chunks_eq_ok_iff,
    fun cs hcs => ⟨chunks_eq_ok_iff.2 (frames_ofChunks hcs), fun s hs => ?_⟩, fun s hs => ?_⟩
  · exact (chunks_eq_ok_iff.1 hs).eq_or_length_lt
  · cases h : chunks s with
    | error e => exact ⟨e, rfl⟩
    | ok cs => exact absurd ⟨cs, chunks_eq_ok_iff.1 h⟩ hs

/-- One byte pushed with two bytes of length is read, and is not what is written. -/
theorem framing_exact_sample :
    chunks [0x6a, 0x4d, 1, 0, 7] = .ok [[7]] ∧ (ofChunks [[7]]).length < 5 := by
  have hread : chunks [0x6a, 0x4d, 1, 0, 7] = .ok [[7]] := by cbv
  obtain ⟨-, hshortest, -⟩ := framing_exact
  obtain ⟨-, h⟩ := hshortest [[7]] (by decide)
  exact ⟨hread, (h _ hread).resolve_left (by decide)⟩

end Script
end SimpleLedger
