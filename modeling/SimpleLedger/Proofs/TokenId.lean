import SimpleLedger.Proofs.Hex.Reading
import SimpleLedger.Proofs.Json.Shape
import SimpleLedger.Wire.Token

/-!
# Identifiers and their texts

Identifiers and texts of 64 lower-case digits are in bijection, by `TokenId.toHex` and
`TokenId.ofHex`, and the order of the ones is the order of the others.

* `ofHex_eq_ok_iff`: which texts are read as an identifier.  They may mix cases.
* `ofHex_eq_hex_iff`, `ofHex_eq_length_iff`: which texts are refused, and why.
* `hex_order_isomorphism` puts these together with the order and the form in JSON.
-/

set_option autoImplicit false

namespace SimpleLedger
namespace TokenId

variable {s : String} {id : TokenId} {bs : Bytes}

/-! ## Reading a text -/

theorem ofBytes_eq_error_iff {e : Error} :
    ofBytes bs = .error e ↔ bs.length ≠ 32 ∧ e = .length bs.length := by
  rw [ofBytes, Digest.ofBytes?]
  by_cases hlen : bs.length = 32
  · simp [hlen]
  · simp [hlen, eq_comm]

theorem toHex_injective : Function.Injective toHex :=
  fun _ _ h => bytes_inj.1 (Hex.encode_injective h)

theorem ofHex_eq_ok_iff :
    ofHex s = .ok id ↔ (∀ c ∈ s.toList, Hex.IsDigit c) ∧ id.toHex = s.toLower := by
  rw [toHex, ← Hex.decode_eq_ok_iff, ofHex]
  split
  next bs h => rw [ofBytes_eq_ok_iff, h, Except.ok.injEq, eq_comm]
  next e h => simp [h]

theorem exists_ofHex_iff :
    (∃ id, ofHex s = .ok id) ↔ s.length = 64 ∧ ∀ c ∈ s.toList, Hex.IsDigit c := by
  constructor
  · rintro ⟨id, h⟩
    obtain ⟨hdigits, hlower⟩ := ofHex_eq_ok_iff.1 h
    rw [Hex.length_eq_of_encode_eq hlower, id.length_bytes]
    exact ⟨rfl, hdigits⟩
  · rintro ⟨hlen, hdigits⟩
    obtain ⟨bs, -, hlower⟩ := Hex.decode_of_isDigit hdigits (by rw [hlen])
    have hbs := Hex.length_eq_of_encode_eq hlower
    exact ⟨⟨⟨bs, by omega⟩⟩, ofHex_eq_ok_iff.2 ⟨hdigits, hlower⟩⟩

theorem ofHex_toHex (id : TokenId) : ofHex id.toHex = .ok id := by
  rw [ofHex, toHex, Hex.decode_encode]
  exact ofBytes_eq_ok_iff.2 rfl

/-- The length is counted only where the text is hexadecimal. -/
theorem ofHex_eq_hex_iff {e : Hex.Error} :
    ofHex s = .error (.hex e) ↔ Hex.decode s = .error e := by
  rw [ofHex]
  split
  next bs h => simp [h, ofBytes_eq_error_iff]
  next e' h => simp [h]

theorem ofHex_eq_length_iff {n : Nat} : ofHex s = .error (.length n) ↔
    (∀ c ∈ s.toList, Hex.IsDigit c) ∧ s.length = 2 * n ∧ n ≠ 32 := by
  constructor
  · intro h
    rw [ofHex] at h
    split at h
    next bs hbs =>
      obtain ⟨hne, hn⟩ := ofBytes_eq_error_iff.1 h
      obtain ⟨hdigits, hlower⟩ := Hex.decode_eq_ok_iff.1 hbs
      rw [Error.length.injEq] at hn
      rw [hn]
      exact ⟨hdigits, Hex.length_eq_of_encode_eq hlower, hne⟩
    next => cases h
  · rintro ⟨hdigits, hlen, hne⟩
    obtain ⟨bs, hbs, hlower⟩ := Hex.decode_of_isDigit hdigits (by omega)
    have hbs' := Hex.length_eq_of_encode_eq hlower
    have hn : n = bs.length := by omega
    rw [ofHex, hbs, hn]
    exact ofBytes_eq_error_iff.2 ⟨hn ▸ hne, rfl⟩

/-! ## In JSON -/

theorem inverts : Json.Inverts ofJson? toJson where
  plain _ := .text _
  read_write id := by
    rw [toJson, ofJson?, Json.inverts_text.read_write, Option.bind_some, ofHex_toHex]
    rfl

theorem parse?_compact_text_bind (s : String) :
    (Json.parse? (Json.compact (.text s))).bind ofJson? = (ofHex s).toOption := by
  rw [Json.parse?_compact (.text s), Option.bind_some, ofJson?, Json.inverts_text.read_write,
    Option.bind_some]

/-! ## Order -/

section

variable {a b : TokenId}

theorem compare_eq (a b : TokenId) : compare a b = compare a.bytes b.bytes := rfl

theorem compare_eq_eq_iff : compare a b = .eq ↔ a = b := by
  rw [compare_eq, Std.compare_eq_iff_eq, bytes_inj]

theorem compare_eq_lt_iff : compare a b = .lt ↔ a.toHex < b.toHex :=
  Hex.compare_eq_lt_iff a.bytes b.bytes

theorem compare_eq_gt_iff : compare a b = .gt ↔ b.toHex < a.toHex := by
  rw [← compare_eq_lt_iff, compare_eq, compare_eq, Std.OrientedCmp.gt_iff_lt]

end

/-- **Identifiers and their texts are in bijection, and in the same order.**  Exactly the texts of
64 hexadecimal digits are read, each as the identifier that is written as the text in lower case.
Of the others, a text with an odd number of bytes is refused as such, one with other bytes than
digits for the first of them, and one of digits for the number of bytes that it stands for.  A
string of a document is read in the same way. -/
theorem hex_order_isomorphism :
    (∀ s, (∃ id, ofHex s = .ok id) ↔ s.length = 64 ∧ ∀ c ∈ s.toList, Hex.IsDigit c) ∧
    (∀ s id, ofHex s = .ok id → id.toHex = s.toLower) ∧
    (∀ s, ofHex s = .error (.hex .oddLength) ↔ (Utf8.encode s).length % 2 = 1) ∧
    (∀ s b i, ofHex s = .error (.hex (.invalidByte b i)) ↔
      (Utf8.encode s).length % 2 = 0 ∧ Hex.IsFirstInvalid (Utf8.encode s) b i) ∧
    (∀ s n, ofHex s = .error (.length n) ↔
      (∀ c ∈ s.toList, Hex.IsDigit c) ∧ s.length = 2 * n ∧ n ≠ 32) ∧
    (∀ s, ofJson? (.text s) = (ofHex s).toOption ∧
      (Json.parse? (Json.compact (.text s))).bind ofJson? = (ofHex s).toOption) ∧
    (∀ id, ofHex id.toHex = .ok id) ∧
    ∀ a b : TokenId, (compare a b = .lt ↔ a.toHex < b.toHex) ∧
      (compare a b = .gt ↔ b.toHex < a.toHex) ∧ (compare a b = .eq ↔ a.toHex = b.toHex) ∧
      (a = b ↔ a.toHex = b.toHex) := by
  refine ⟨fun s => exists_ofHex_iff, fun s id h => (ofHex_eq_ok_iff.1 h).2, fun s => ?_,
    fun s b i => ?_, fun s n => ofHex_eq_length_iff, fun s => ⟨rfl, parse?_compact_text_bind s⟩,
    ofHex_toHex, fun a b => ⟨compare_eq_lt_iff, compare_eq_gt_iff, ?_, ?_⟩⟩
  · rw [ofHex_eq_hex_iff, Hex.decode_eq_oddLength_iff]
  · rw [ofHex_eq_hex_iff, Hex.decode_eq_invalidByte_iff]
  · rw [compare_eq_eq_iff, toHex_injective.eq_iff]
  · rw [toHex_injective.eq_iff]

/-- A text in mixed cases is accepted.  The text "aé0" has four bytes, of which the second one is no
digit. -/
theorem hex_order_isomorphism_sample :
    (∃ id, ofHex (String.ofList ('a' :: List.replicate 63 'F')) = .ok id ∧
      id.toHex = String.ofList ('a' :: List.replicate 63 'f')) ∧
    ofHex "0é" = .error (.hex .oddLength) ∧
    ofHex "aé0" = .error (.hex (.invalidByte 0xc3 1)) ∧
    ofHex "abcd" = .error (.length 2) := by
  obtain ⟨hok, hlower, hodd, hbad, hlength, -⟩ := hex_order_isomorphism
  refine ⟨?_, (hodd "0é").2 (by decide +kernel), (hbad "aé0" 0xc3 1).2 ⟨by decide +kernel, ?_⟩,
    (hlength "abcd" 2).2 ⟨?_, by decide +kernel, by decide⟩⟩
  · have hdigits : ∀ c ∈ 'a' :: List.replicate 63 'F', Hex.IsDigit c := by
      rw [List.forall_mem_cons]
      exact ⟨by decide, fun c hc => by rw [List.eq_of_mem_replicate hc]; decide⟩
    obtain ⟨id, hid⟩ := (hok _).2 ⟨String.length_ofList, by rwa [String.toList_ofList]⟩
    refine ⟨id, hid, (hlower _ id hid).trans ?_⟩
    rw [← String.toList_inj, String.toLower, String.toList_map, String.toList_ofList,
      String.toList_ofList, List.map_cons, List.map_replicate]
    rfl
  · exact ⟨[0x61], [0xa9, 0x30], by decide +kernel, rfl, by decide +kernel, by decide⟩
  · have hchars : "abcd".toList = ['a', 'b', 'c', 'd'] := by decide +kernel
    simp only [hchars, List.forall_mem_cons]
    exact ⟨by decide, by decide, by decide, by decide, nofun⟩

end TokenId
end SimpleLedger
