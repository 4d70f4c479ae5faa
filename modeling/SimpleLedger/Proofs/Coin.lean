import Mathlib
import SimpleLedger.Coin

/-!
# Outpoints as texts

The name of a transaction is any text, so it may hold colons and digits like those that an outpoint
adds to it.  The digits of an index hold no colon, though, and so the last colon is the one that
was added.

* `Coin.rtakeWhile_outpoint`: what comes after the last colon is the index.
* `Coin.outpoint_eq_iff`: outpoints are the same text only for the same output of the same
  transaction.
-/

set_option autoImplicit false

namespace SimpleLedger
namespace Coin

variable {c c' : Coin}

theorem toList_outpoint (c : Coin) :
    c.outpoint.toList = c.txid.toList ++ ':' :: Nat.toDigits 10 c.vout.toNat := by
  change (c.txid ++ ":" ++ c.vout.toNat.repr).toList = _
  rw [String.toList_append, String.toList_append, Nat.toList_repr, List.append_assoc]
  rfl

example : (⟨"a:1", 23, 546, ""⟩ : Coin).outpoint = "a:1:23" := by decide +kernel

/-- No digit is a colon. -/
theorem ne_colon_of_mem_toDigits {n : Nat} {d : Char} (h : d ∈ Nat.toDigits 10 n) : d ≠ ':' := by
  rintro rfl
  exact absurd (Nat.isDigit_of_mem_toDigits (by decide) (by decide) h) (by decide)

/-- What comes after the last colon is the index. -/
theorem rtakeWhile_outpoint (c : Coin) :
    c.outpoint.toList.rtakeWhile (· ≠ ':') = Nat.toDigits 10 c.vout.toNat := by
  have hdigits : ∀ d ∈ (Nat.toDigits 10 c.vout.toNat).reverse, decide (d ≠ ':') = true :=
    fun d hd => decide_eq_true (ne_colon_of_mem_toDigits (List.mem_reverse.1 hd))
  rw [toList_outpoint, List.rtakeWhile, List.reverse_append, List.reverse_cons, List.append_assoc,
    List.takeWhile_append_of_pos hdigits, List.singleton_append,
    List.takeWhile_cons_of_neg (by decide), List.append_nil, List.reverse_reverse]

theorem vout_eq_of_outpoint_eq (h : c.outpoint = c'.outpoint) : c.vout = c'.vout := by
  have hdigits := c.rtakeWhile_outpoint
  rw [h, c'.rtakeWhile_outpoint, ← Nat.toList_repr, ← Nat.toList_repr, String.toList_inj,
    Nat.repr_inj, UInt32.toNat_inj] at hdigits
  exact hdigits.symm

/-- **An outpoint is unambiguous**, whatever transactions are called. -/
theorem outpoint_eq_iff : c.outpoint = c'.outpoint ↔ c.txid = c'.txid ∧ c.vout = c'.vout := by
  constructor
  · intro h
    have hvout := vout_eq_of_outpoint_eq h
    -- the parts after the names are the same text, and so are the names
    have hlist := congrArg String.toList h
    rw [toList_outpoint, toList_outpoint, hvout, List.append_left_inj, String.toList_inj] at hlist
    exact ⟨hlist, hvout⟩
  · rintro ⟨htxid, hvout⟩
    rw [outpoint, outpoint, htxid, hvout]

end Coin
end SimpleLedger
