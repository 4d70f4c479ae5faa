import SimpleLedger.Wallet.Call
import SimpleLedger.Wallet.Error

/-!
# Procedures

What a wallet does is written as a `Procedure`: a tree of the steps it may take, each with what
follows it.  A procedure does not run by itself, so its steps can be mixed with those of others
(`SimpleLedger.Wallet.Interleaving`).  `Act` adds failure, and the functions in its namespace are
the words in which the actions of a wallet are written.
-/

set_option autoImplicit false

namespace SimpleLedger
namespace Wallet

/-- What is left to do, as a tree: each step with what follows it, and a result at the end. -/
inductive Procedure (α : Type) where
  | done (result : α)
  | call (c : Call) (next : Except WalletError c.Answer → Procedure α)
  /-- Lets others go on. -/
  | pause (next : Procedure α)
  /-- Waits until nobody holds the lock, and takes it. -/
  | lock (next : Procedure α)
  | unlock (next : Procedure α)

namespace Procedure

variable {α β : Type}

/-- One procedure after another. -/
def bind : Procedure α → (α → Procedure β) → Procedure β
  | .done a, f => f a
  | .call c next, f => .call c fun r => (next r).bind f
  | .pause next, f => .pause (next.bind f)
  | .lock next, f => .lock (next.bind f)
  | .unlock next, f => .unlock (next.bind f)

instance : Monad Procedure where
  pure := .done
  bind := bind

/-- The result of a procedure that is done. -/
def result? : Procedure α → Option α
  | .done a => some a
  | _ => none

end Procedure

/-- A procedure that may fail. -/
abbrev Act := ExceptT WalletError Procedure

namespace Act

variable {α : Type}

/-- Gives up. -/
def fail (e : WalletError) : Act α := ExceptT.mk (.done (.error e))

/-- Asks the backend.  Where it refuses, the act fails. -/
def ask (c : Call) : Act c.Answer := ExceptT.mk (.call c .done)

/-- Builds a transaction while others go on. -/
def build (result : Except Error α) : Act α :=
  ExceptT.mk (.pause (.done (result.mapError WalletError.ofBuild)))

/-- Hands a draft to the backend, after others had a chance to go on. -/
def broadcast (draft : Draft) : Act TxId := ExceptT.mk (.pause (ask (.broadcast draft)).run)

/-- Holds the lock during an act, however it ends. -/
def locked (act : Act α) : Act α :=
  ExceptT.mk (.lock (act.run.bind fun r => .unlock (.done r)))

end Act
end Wallet
end SimpleLedger
