import SimpleLedger.Wallet.Action
import SimpleLedger.Wallet.Interleaving

/-!
# Sessions

A session is a list of steps on one wallet: actions, alone or side by side, and changes to the
backend from outside.  Each step leads to a report of what it resulted in, what it broadcast and
which coins are left.
-/

set_option autoImplicit false

namespace SimpleLedger
namespace Wallet

/-- Something that the wallet does, or that happens to its backend. -/
inductive SessionStep where
  | act (action : Action)
  /-- Starts several actions in order and lets them run side by side. -/
  | together (actions : List Action)
  | addToken (id : TokenId) (descriptor : Descriptor)
  | addTokenCoin (coin : Holding TokenCoin)
  | addPlainCoin (coin : Holding Coin)
  | confirm
  | setFault (fault : Option Fault)
  deriving DecidableEq

/-- What a step resulted in. -/
inductive StepResult where
  | nothing
  /-- The outcome of an action and the calls that it made. -/
  | one (outcome : Outcome) (calls : List Call)
  | many (outcomes : List Outcome)

/-- What is seen of a step from outside. -/
structure Report where
  result : StepResult
  /-- The transactions that were broadcast during the step. -/
  broadcast : List Draft
  tokenCoins : List TokenCoin
  plainCoins : List Coin

namespace Backend

/-- All coins confirmed. -/
def confirmAll (b : Backend) : Backend :=
  { b with
    tokenCoins := b.tokenCoins.map fun h => { h with unconfirmed := false }
    plainCoins := b.plainCoins.map fun h => { h with unconfirmed := false } }

/-- Runs an action on its own. -/
def act (b : Backend) (config : Config) (action : Action) : Outcome × Backend :=
  (action.procedure config).run b

/-- Runs actions side by side.  Whoever holds the lock pauses twice before it is free again, and
the next one in line takes it in the same round, so two rounds for each action and one more would
do. -/
def actTogether (b : Backend) (config : Config) (actions : List Action) :
    List Outcome × Backend :=
  let m := Machine.start b (actions.map fun a => a.procedure config)
  let m := m.rounds (3 * actions.length)
  (m.results, m.backend)

/-- What a step results in, and the backend after it. -/
def sessionStep (b : Backend) (config : Config) : SessionStep → StepResult × Backend
  | .act action =>
    let (outcome, after) := b.act config action
    (.one outcome (after.log.drop b.log.length), after)
  | .together actions =>
    let (outcomes, after) := b.actTogether config actions
    (.many outcomes, after)
  | .addToken id d => (.nothing, { b with descriptors := b.descriptors ++ [(id, d)] })
  | .addTokenCoin h => (.nothing, { b with tokenCoins := b.tokenCoins ++ [h] })
  | .addPlainCoin h => (.nothing, { b with plainCoins := b.plainCoins ++ [h] })
  | .confirm => (.nothing, b.confirmAll)
  | .setFault fault => (.nothing, { b with fault })

/-- The reports of a session. -/
def session (config : Config) : Backend → List SessionStep → List Report
  | _, [] => []
  | b, s :: steps =>
    let (result, after) := b.sessionStep config s
    { result
      broadcast := after.recorded.drop b.recorded.length
      tokenCoins := after.tokenCoins.map Holding.coin
      plainCoins := after.plainCoins.map Holding.coin } :: session config after steps

end Backend
end Wallet
end SimpleLedger
