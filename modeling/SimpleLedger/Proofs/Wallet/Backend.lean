import SimpleLedger.Wallet.Backend

/-!
# What calls leave behind

A call other than a broadcast changes nothing but the log, and no answer depends on the log.  The
log is put aside by `Backend.unlogged`, and `Backend.settings` puts aside the ledger as well: what
is left never changes.

* `Backend.unlogged_answer` and `Backend.answer_broadcast` say what calls do.
* `Backend.SameCoins`: two backends have the same coins and recorded the same transactions.
* `Backend.tokens_record`, `Backend.plain_record`: what a recorded transaction leaves.
-/

set_option autoImplicit false

namespace SimpleLedger

/-- The outpoints that a draft spends. -/
def Draft.spent (d : Draft) : List String := d.inputs.map Coin.outpoint

namespace Wallet
namespace Backend

/-! ## The log put aside -/

/-- The backend as if nobody had called it. -/
def unlogged (b : Backend) : Backend := { b with log := [] }

/-- All that no call changes. -/
def settings (b : Backend) : Backend :=
  { b with tokenCoins := [], plainCoins := [], recorded := [], log := [] }

@[simp]
theorem settings_unlogged (b : Backend) : b.unlogged.settings = b.settings := rfl

@[simp]
theorem settings_record (b : Backend) (d : Draft) : (b.record d).settings = b.settings := rfl

theorem settings_eq_of_unlogged_eq {b b' : Backend} (h : b'.unlogged = b.unlogged) :
    b'.settings = b.settings := by
  rw [← settings_unlogged, h, settings_unlogged]

/-! ## Answers -/

theorem eq_perform_of_answer {b : Backend} {c : Call} {a : c.Answer}
    (h : (b.answer c).1 = .ok a) : a = (b.perform c).1 := by
  rw [answer] at h
  dsimp only at h
  split at h
  · cases h
  · cases c <;> exact (Except.ok.inj h).symm

theorem answer_unlogged (b : Backend) (c : Call) : (b.unlogged.answer c).1 = (b.answer c).1 := by
  rw [answer, answer]
  dsimp only [unlogged]
  split
  · rfl
  · cases c <;> rfl

theorem unlogged_answer_unlogged (b : Backend) (c : Call) :
    (b.unlogged.answer c).2.unlogged = (b.answer c).2.unlogged := by
  rw [answer, answer]
  dsimp only [unlogged]
  split
  · rfl
  · cases c <;> rfl

theorem settings_answer (b : Backend) (c : Call) : (b.answer c).2.settings = b.settings := by
  rw [answer]
  dsimp only
  split
  · rfl
  · cases c <;> rfl

/-- What is known about a token does not depend on the ledger. -/
theorem answer_settings (b : Backend) (id : TokenId) :
    (b.settings.answer (.tokenDescriptor id)).1 = (b.answer (.tokenDescriptor id)).1 := by
  rw [answer, answer]
  dsimp only [settings]
  split <;> rfl

/-- Only a broadcast has an effect. -/
theorem unlogged_answer {c : Call} (hc : c.name ≠ .broadcast) (b : Backend) :
    (b.answer c).2.unlogged = b.unlogged := by
  rw [answer]
  dsimp only
  split
  · rfl
  · cases c <;> first | rfl | exact absurd rfl hc

/-- A broadcast fails, or the draft is recorded. -/
theorem answer_broadcast (b : Backend) (d : Draft) :
    (∃ e, (b.answer (.broadcast d)).1 = .error e ∧
        (b.answer (.broadcast d)).2.unlogged = b.unlogged) ∨
      ∃ id, (b.answer (.broadcast d)).1 = .ok id ∧
        (b.answer (.broadcast d)).2.unlogged = b.unlogged.record d := by
  rw [answer]
  dsimp only
  split
  next f hf => exact .inl ⟨.backend f.reason, rfl, rfl⟩
  next => exact .inr ⟨_, rfl, rfl⟩

/-! ## Coins -/

/-- The coins with tokens, confirmed or not. -/
def tokens (b : Backend) : List TokenCoin := b.tokenCoins.map Holding.coin

/-- The coins without tokens. -/
def plain (b : Backend) : List Coin := b.plainCoins.map Holding.coin

/-- All coins, those with tokens first. -/
def coins (b : Backend) : List Coin := b.tokens.map TokenCoin.coin ++ b.plain

/-- Whether the two hold the same coins and recorded the same transactions. -/
structure SameCoins (b b' : Backend) : Prop where
  tokens : b'.tokens = b.tokens
  plain : b'.plain = b.plain
  recorded : b'.recorded = b.recorded

theorem SameCoins.of_unlogged_eq {b b' : Backend} (h : b'.unlogged = b.unlogged) :
    SameCoins b b' := by
  have htokens := congrArg Backend.tokens h
  have hplain := congrArg Backend.plain h
  have hrecorded := congrArg Backend.recorded h
  exact ⟨htokens, hplain, hrecorded⟩

theorem spendable_sublist {α : Type} (unconfirmed : Bool) (holdings : List (Holding α)) :
    (spendable unconfirmed holdings).Sublist (holdings.map Holding.coin) :=
  List.filter_sublist.map _

theorem tokenCoinsOf_sublist (b : Backend) (id : TokenId) (unconfirmed : Bool) :
    (b.tokenCoinsOf id unconfirmed).Sublist b.tokens :=
  List.filter_sublist.trans (spendable_sublist unconfirmed b.tokenCoins)

theorem tokens_record (b : Backend) (d : Draft) :
    (b.record d).tokens =
      b.tokens.filter fun c => !d.spent.contains c.coin.outpoint := by
  rw [tokens, tokens, List.filter_map]
  rfl

theorem plain_record (b : Backend) (d : Draft) :
    (b.record d).plain =
      b.plain.filter fun c => !d.spent.contains c.outpoint := by
  rw [plain, plain, List.filter_map]
  rfl

end Backend
end Wallet
end SimpleLedger
