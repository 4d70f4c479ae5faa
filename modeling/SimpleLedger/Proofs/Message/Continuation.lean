import SimpleLedger.Proofs.Message.Canonical
import SimpleLedger.Proofs.Message.Grammar

/-!
# Messages that are cut off or gone on with

What happens to a script when bytes are added to its end, or taken from there.

* `Script.Frames.append_iff`: a script with bytes after it is a script just if these bytes are
  pushes themselves, and its own chunks then come first.
* `Message.Spells.append_eq_nil`: a GENESIS or a MINT has just the chunks that it needs.
* `Message.Spells.append_iff`: a SEND can be gone on with by further quantities and nothing else.
* `Message.continuation_exact` says the same of the reader, for every place at which a script is
  cut.

No cut needs to be looked at.  If a cut script is read at all, then the whole script is the cut one
gone on with.
-/

set_option autoImplicit false

namespace SimpleLedger

/-! ## Scripts -/

namespace Script

variable {s t : Bytes} {cs ds es : List Bytes}

/-- Reading goes on after a piece of script as if it began there. -/
theorem Pushes.chunksAt_append (h : Pushes s cs) (pos : Nat) (t : Bytes) :
    chunksAt pos (s ++ t) = (chunksAt (pos + s.length) t).map (cs ++ ·) := by
  induction h generalizing pos with
  | nil => cases h : chunksAt pos t <;> simp [h, Except.map]
  | @cons header c s cs first _ ih =>
    obtain ⟨opcode, len, rfl, hk, hn⟩ := isHeader_iff.1 first
    have hpos : pos + (1 + len.length + c.length) + s.length =
        pos + ((opcode :: len) ++ c ++ s).length := by
      simp only [List.length_append, List.length_cons]
      omega
    rw [List.append_assoc, List.append_assoc, List.cons_append,
      chunksAt_push_of_length pos _ hk hn, ih, hpos]
    cases chunksAt (pos + ((opcode :: len) ++ c ++ s).length) t <;> rfl

theorem Pushes.append_iff (h : Pushes s cs) :
    Pushes (s ++ t) es ↔ ∃ ds, es = cs ++ ds ∧ Pushes t ds := by
  constructor
  · intro hes
    have hread := hes.chunksAt_eq 0
    rw [h.chunksAt_append] at hread
    cases ht : chunksAt (0 + s.length) t with
    | error e => rw [ht] at hread; cases hread
    | ok ds =>
      rw [ht] at hread
      cases hread
      exact ⟨ds, rfl, pushes_of_chunksAt ht⟩
  · rintro ⟨ds, rfl, ht⟩
    refine @pushes_of_chunksAt 0 _ _ ?_
    rw [h.chunksAt_append, ht.chunksAt_eq]
    rfl

/-- **A script is gone on with by pushes.** -/
theorem Frames.append_iff (h : Frames s cs) :
    Frames (s ++ t) es ↔ ∃ ds, es = cs ++ ds ∧ Pushes t ds := by
  obtain ⟨body, rfl, h⟩ := h
  rw [← h.append_iff]
  constructor
  · rintro ⟨body', heq, hes⟩
    rw [List.cons_append, List.cons.injEq] at heq
    rwa [heq.2]
  · intro hes
    exact ⟨body ++ t, rfl, hes⟩

theorem Pushes.eq_nil_of_nil (h : Pushes s []) : s = [] := by
  cases h
  rfl

end Script

namespace Message

variable {s t : Bytes} {cs ds : List Bytes} {m m' : Message}

/-! ## Chunks -/

theorem byte_inj {t t' : TokenType} (h : t.byte = t'.byte) : t = t' := by
  have h' := TokenType.ofByte?_eq_some_iff.2 h
  rw [TokenType.ofByte?_eq_some_iff.2 rfl] at h'
  exact (Option.some.inj h').symm

theorem keyword_inj {op op' : Operation} (h : op.keyword = op'.keyword) : op = op' := by
  have h' := ofKeyword?_eq_some_iff.2 h
  rw [ofKeyword?_eq_some_iff.2 rfl] at h'
  exact Option.some.inj h'

/-- The first chunks decide the kind of a message. -/
theorem Spells.kind_eq_of_append (h : Spells cs m) (h' : Spells (cs ++ ds) m') :
    m'.kind = m.kind := by
  have hd := h.describes
  have hd' := h'.describes
  have hsame {i : Nat} {c : Bytes} (hi : cs[i]? = some c) : (cs ++ ds)[i]? = some c := by
    rw [List.getElem?_append_left (List.getElem?_eq_some_iff.1 hi).1, hi]
  have htype : [m'.tokenType.byte] = [m.tokenType.byte] :=
    Option.some.inj (hd'.tokenType.symm.trans (hsame hd.tokenType))
  have hkeyword : m'.kind.operation.keyword = m.kind.operation.keyword :=
    Option.some.inj (hd'.keyword.symm.trans (hsame hd.keyword))
  refine kind_unique ?_ (keyword_inj hkeyword)
  rw [hd.kind, hd'.kind]
  exact byte_inj (List.singleton_inj.1 htype)

/-- How many chunks a message has. -/
theorem Spells.length_eq (h : Spells cs m) :
    cs.length =
      match m.kind.operation with
      | .genesis => 10
      | .mint => 6
      | .send => 4 + m.quantities.length := by
  cases h with
  | genesis operation => rw [operation]; rfl
  | mint operation => rw [operation]; rfl
  | @send k id qs operation =>
    rw [operation]
    simp only [List.length_cons, List.length_map]
    omega

/-- **Only a SEND can be gone on with.** -/
theorem Spells.append_eq_nil (h : Spells cs m) (hop : m.kind.operation ≠ .send)
    (h' : Spells (cs ++ ds) m') : ds = [] := by
  have hlen := h.length_eq
  have hlen' := h'.length_eq
  rw [h.kind_eq_of_append h', List.length_append] at hlen'
  apply List.eq_nil_of_length_eq_zero
  cases hk : m.kind.operation with
  | genesis => simp only [hk] at hlen hlen'; omega
  | mint => simp only [hk] at hlen hlen'; omega
  | send => exact absurd hk hop

theorem spells_send_iff {k : MessageKind} (hop : k.operation = .send) :
    Spells cs m ∧ m.kind = k ↔ ∃ (id : TokenId) (qs : List UInt64),
      cs = lokadId :: [k.tokenType.byte] :: k.operation.keyword :: id.bytes ::
        qs.map Script.quantity ∧
      (1 ≤ qs.length ∧ qs.length ≤ 19) ∧ m = ⟨k.tokenType, k, some id, none, none, qs⟩ := by
  constructor
  · rintro ⟨h, rfl⟩
    cases h with
    | genesis operation => rw [operation] at hop; cases hop
    | mint operation => rw [operation] at hop; cases hop
    | @send k id qs operation count => exact ⟨id, qs, rfl, count, rfl⟩
  · rintro ⟨id, qs, rfl, count, rfl⟩
    exact ⟨.send hop count, rfl⟩

theorem quantity_injective : Function.Injective Script.quantity := by
  intro q q' h
  rw [← UInt64.toNat_inj, ← Script.ofBigEndian_quantity, h, Script.ofBigEndian_quantity]

/-- **A SEND is gone on with by quantities**, up to 19 of them. -/
theorem Spells.append_iff (h : Spells cs m) (hop : m.kind.operation = .send) :
    Spells (cs ++ ds) m' ↔ ∃ qs : List UInt64, ds = qs.map Script.quantity ∧
      m.quantities.length + qs.length ≤ 19 ∧
      m' = { m with quantities := m.quantities ++ qs } := by
  obtain ⟨id, qs, rfl, ⟨hpos, -⟩, hm⟩ := (spells_send_iff hop).1 ⟨h, rfl⟩
  constructor
  · intro h'
    obtain ⟨id', qs', hcs, ⟨-, hle⟩, rfl⟩ :=
      (spells_send_iff hop).1 ⟨h', h.kind_eq_of_append h'⟩
    rw [hm] at hcs
    simp only [List.cons_append, List.cons.injEq, true_and] at hcs
    obtain ⟨hid, hqs⟩ := hcs
    obtain ⟨before, others, rfl, hbefore, rfl⟩ := List.map_eq_append_iff.1 hqs.symm
    cases TokenId.bytes_inj.1 hid
    cases quantity_injective.list_map hbefore
    rw [List.length_append] at hle
    rw [hm]
    exact ⟨others, rfl, hle, rfl⟩
  · rintro ⟨others, rfl, hle, rfl⟩
    rw [hm] at hle ⊢
    refine ((spells_send_iff hop).2 ⟨id, qs ++ others, ?_, ?_, rfl⟩).1
    · rw [List.map_append]
      rfl
    · rw [List.length_append]
      exact ⟨by omega, hle⟩

theorem map_ofNat_ofBigEndian_quantity (qs : List UInt64) :
    ((qs.map Script.quantity).map fun c => UInt64.ofNat (Bytes.ofBigEndian c)) = qs := by
  rw [List.map_map]
  calc
    _ = qs.map id := List.map_congr_left fun q _ => by
      rw [Function.comp_apply, Script.ofBigEndian_quantity, UInt64.ofNat_toNat, id]
    _ = qs := List.map_id qs

/-! ## Scripts of messages -/

theorem eq_nil_of_decode_append (h : decode s = .ok m) (hop : m.kind.operation ≠ .send)
    (h' : decode (s ++ t) = .ok m') : t = [] := by
  obtain ⟨cs, hcs, hm⟩ := decode_eq_ok_iff.1 h
  obtain ⟨es, hes, hm'⟩ := decode_eq_ok_iff.1 h'
  obtain ⟨ds, rfl, ht⟩ := hcs.append_iff.1 hes
  cases hm.append_eq_nil hop hm'
  exact ht.eq_nil_of_nil

theorem decode_append_eq_ok_iff (h : decode s = .ok m) (hop : m.kind.operation = .send) :
    decode (s ++ t) = .ok m' ↔ ∃ qs : List UInt64, Script.Pushes t (qs.map Script.quantity) ∧
      m.quantities.length + qs.length ≤ 19 ∧
      m' = { m with quantities := m.quantities ++ qs } := by
  obtain ⟨cs, hcs, hm⟩ := decode_eq_ok_iff.1 h
  rw [decode_eq_ok_iff]
  constructor
  · rintro ⟨es, hes, hm'⟩
    obtain ⟨ds, rfl, ht⟩ := hcs.append_iff.1 hes
    obtain ⟨qs, rfl, hle, rfl⟩ := (hm.append_iff hop).1 hm'
    exact ⟨qs, ht, hle, rfl⟩
  · rintro ⟨qs, ht, hle, rfl⟩
    exact ⟨_, hcs.append_iff.2 ⟨_, rfl, ht⟩, (hm.append_iff hop).2 ⟨qs, rfl, hle, rfl⟩⟩

/-- What is read is a SEND if a part of it is read on its own. -/
theorem send_of_decode_append (h : decode s = .ok m) (ht : t ≠ []) (h' : decode (s ++ t) = .ok m') :
    m.kind.operation = .send ∧ m'.kind.operation = .send := by
  have hop : m.kind.operation = .send := by
    by_contra hop
    exact ht (eq_nil_of_decode_append h hop h')
  obtain ⟨qs, -, -, rfl⟩ := (decode_append_eq_ok_iff h hop).1 h'
  exact ⟨hop, hop⟩

theorem exists_error_of_forall_ne (h : ∀ m, decode s ≠ .ok m) : ∃ e, decode s = .error e := by
  cases hs : decode s with
  | error e => exact ⟨e, rfl⟩
  | ok m => exact absurd hs (h m)

/-- **A message is never mistaken for a longer or a shorter one.**  With anything added to its end,
or with any part of its end cut off, a GENESIS or a MINT is refused.  A SEND can be gone on with
just by pushes of eight bytes, in any form, while there are no more than 19 quantities; it then
reads as the same message with these quantities added.  So if a part of a SEND is read on its own,
it moves the same token, and its quantities are the first ones of the whole. -/
theorem continuation_exact {s : Bytes} {m : Message} (h : decode s = .ok m) :
    match m.kind.operation with
    | .genesis | .mint =>
      (∀ t, t ≠ [] → ∃ e, decode (s ++ t) = .error e) ∧
      ∀ p, p <+: s → p ≠ s → ∃ e, decode p = .error e
    | .send =>
      (∀ t, t ≠ [] → ((∃ m', decode (s ++ t) = .ok m') ↔ ∃ cs, Script.Pushes t cs ∧
        (∀ c ∈ cs, c.length = 8) ∧ m.quantities.length + cs.length ≤ 19)) ∧
      (∀ t cs m', Script.Pushes t cs → decode (s ++ t) = .ok m' →
        m' = { m with
          quantities := m.quantities ++ cs.map fun c => UInt64.ofNat (Bytes.ofBigEndian c) }) ∧
      ∀ p m', p <+: s → p ≠ s → decode p = .ok m' → ∃ n < m.quantities.length,
        m' = { m with quantities := m.quantities.take n } := by
  have hcut : ∀ p m', p <+: s → p ≠ s → decode p = .ok m' → m.kind.operation = .send ∧
      ∃ n < m.quantities.length, m' = { m with quantities := m.quantities.take n } := by
    rintro p m' ⟨t, rfl⟩ hne hp
    have ht : t ≠ [] := by
      rintro rfl
      exact hne (List.append_nil p).symm
    obtain ⟨hop', hop⟩ := send_of_decode_append hp ht h
    obtain ⟨qs, hqs, -, rfl⟩ := (decode_append_eq_ok_iff hp hop').1 h
    refine ⟨hop, m'.quantities.length, ?_, ?_⟩
    · rw [List.length_append, Nat.lt_add_right_iff_pos, List.length_pos_iff]
      rintro rfl
      exact ht hqs.eq_nil_of_nil
    · rw [List.take_left]
  have hwhole : m.kind.operation ≠ .send → (∀ t, t ≠ [] → ∃ e, decode (s ++ t) = .error e) ∧
      ∀ p, p <+: s → p ≠ s → ∃ e, decode p = .error e := by
    intro hop
    refine ⟨fun t ht => exists_error_of_forall_ne fun m' h' => ?_,
      fun p hp hne => exists_error_of_forall_ne fun m' h' => ?_⟩
    · exact ht (eq_nil_of_decode_append h hop h')
    · exact hop (hcut p m' hp hne h').1
  cases hop : m.kind.operation with
  | genesis => exact hwhole (by rw [hop]; nofun)
  | mint => exact hwhole (by rw [hop]; nofun)
  | send =>
    refine ⟨fun t ht => ?_, fun t cs m' ht h' => ?_, fun p m' hp hne h' => (hcut p m' hp hne h').2⟩
    · simp only [decode_append_eq_ok_iff h hop]
      constructor
      · rintro ⟨m', qs, ht, hle, -⟩
        refine ⟨_, ht, exists_quantities_iff.1 ⟨qs, rfl⟩, ?_⟩
        rwa [List.length_map]
      · rintro ⟨cs, ht, hcs, hle⟩
        obtain ⟨qs, rfl⟩ := exists_quantities_iff.2 hcs
        rw [List.length_map] at hle
        exact ⟨_, qs, ht, hle, rfl⟩
    · obtain ⟨qs, ht', -, rfl⟩ := (decode_append_eq_ok_iff h hop).1 h'
      have hcs := (ht.chunksAt_eq 0).symm.trans (ht'.chunksAt_eq 0)
      cases hcs
      rw [map_ofNat_ofBigEndian_quantity]

/-- A SEND of 258 units goes on with 7 units, pushed with a byte of length, and reads as a SEND of
258 units when they are cut off again.  A MINT with an empty chunk after it is refused. -/
theorem continuation_exact_sample :
    (∃ s m, encodeSend .fungible ⟨⟨List.replicate 32 7, rfl⟩⟩ [258] = .ok s ∧
      decode (s ++ [0x4c, 8, 0, 0, 0, 0, 0, 0, 0, 7]) = .ok m ∧ m.quantities = [258, 7] ∧
      ∀ m', decode s = .ok m' → ∃ n < 2, m' = { m with quantities := [258, 7].take n }) ∧
    ∃ s e, encodeMint .fungible ⟨⟨List.replicate 32 7, rfl⟩⟩ none 258 = .ok s ∧
      decode (s ++ [0x4c, 0]) = .error e := by
  have hpush : Script.Pushes [0x4c, 8, 0, 0, 0, 0, 0, 0, 0, 7] [[0, 0, 0, 0, 0, 0, 0, 7]] :=
    @Script.pushes_of_chunksAt 0 _ _ (by cbv)
  constructor
  · obtain ⟨s, hs⟩ : ∃ s, encodeSend .fungible ⟨⟨List.replicate 32 7, rfl⟩⟩ [258] = .ok s :=
      ⟨_, encodeSend_eq_ok_iff.2 ⟨by decide, rfl⟩⟩
    obtain ⟨k, ⟨ht, hop⟩, hsend⟩ := decode_send hs
    cases @kind_unique k .send ht hop
    obtain ⟨hgoes, hreads, -⟩ := continuation_exact hsend
    obtain ⟨m, hm⟩ := (hgoes _ (by decide)).2 ⟨_, hpush, by decide, by decide⟩
    cases hreads _ _ m hpush hm
    obtain ⟨-, -, hcut⟩ := continuation_exact hm
    exact ⟨s, _, hs, hm, rfl, fun m' h' => hcut _ m' (List.prefix_append _ _) (by simp) h'⟩
  · obtain ⟨s, hs⟩ : ∃ s, encodeMint .fungible ⟨⟨List.replicate 32 7, rfl⟩⟩ none 258 = .ok s :=
      ⟨_, encodeMint_eq_ok_iff.2 ⟨⟨by decide, by rintro _ ⟨⟩⟩, rfl⟩⟩
    obtain ⟨k, ⟨ht, hop⟩, hmint⟩ := decode_mint hs
    cases @kind_unique k .mint ht hop
    obtain ⟨hrefuses, -⟩ := continuation_exact hmint
    obtain ⟨e, he⟩ := hrefuses [0x4c, 0] (by decide)
    exact ⟨s, e, hs, he⟩

end Message
end SimpleLedger
