import SimpleLedger.Assembly.Genesis
import SimpleLedger.Proofs.Assembly.Basic
import SimpleLedger.Proofs.Error
import SimpleLedger.Proofs.Funding.Sufficiency
import SimpleLedger.Proofs.Message.RoundTrip

/-!
# What a GENESIS is made of

* `Selection.selectParent_eq_ok_iff` and `selectParent_eq_error_iff`: which coin is the parent of a
  child, and when there is none.
* `Assembly.CreateOutcome` lists the ways in which `Assembly.create`, which is common to all of
  them, ends; `create_eq_ok` and `error_of_create` are read off it.
* `Assembly.genesis_eq_ok` and `Assembly.childGenesis_eq_ok` say which message they carry; the
  latter also which unit of the group goes in first.
-/

set_option autoImplicit false

namespace SimpleLedger

/-! ## The parent of a child -/

namespace Selection

variable {parent : TokenId} {coins : List TokenCoin} {c : TokenCoin}

/-- The parent of a child is the first of the coins that holds a single unit. -/
theorem selectParent_eq_ok_iff :
    selectParent parent coins = .ok c ↔
      ∃ before after, coins = before ++ c :: after ∧ (c.tokenId = parent ∧ c.quantity = 1) ∧
        ∀ d ∈ before, ¬(d.tokenId = parent ∧ d.quantity = 1) := by
  have hfind : selectParent parent coins = .ok c ↔
      coins.find? (fun c => c.tokenId = parent ∧ c.quantity = 1) = some c := by
    rw [selectParent]
    split
    next c' hc' => rw [hc', Except.ok.injEq, Option.some.injEq]
    next hnone => rw [hnone]; exact iff_of_false nofun nofun
  rw [hfind, List.find?_eq_some_iff_append]
  simp only [decide_eq_true_eq, Bool.not_eq_true', decide_eq_false_iff_not]
  constructor
  · rintro ⟨hc, before, after, hcoins, hbefore⟩
    exact ⟨before, after, hcoins, hc, hbefore⟩
  · rintro ⟨before, after, hcoins, hc, hbefore⟩
    exact ⟨hc, before, after, hcoins, hbefore⟩

theorem selectParent_eq_error_iff {e : Error} :
    selectParent parent coins = .error e ↔
      e = .selection (.missingParent parent) ∧
        ∀ c ∈ coins, ¬(c.tokenId = parent ∧ c.quantity = 1) := by
  rw [selectParent]
  split
  next c hfind =>
    have hc := List.find?_some hfind
    rw [decide_eq_true_eq] at hc
    exact iff_of_false nofun fun h => h.2 c (List.mem_of_find?_eq_some hfind) hc
  next hfind =>
    have hnone := List.find?_eq_none.1 hfind
    simp only [decide_eq_true_eq] at hnone
    rw [Except.error.injEq, and_iff_left hnone]
    exact eq_comm

theorem mem_of_selectParent (h : selectParent parent coins = .ok c) :
    c ∈ coins ∧ c.tokenId = parent ∧ c.quantity = 1 := by
  obtain ⟨before, after, rfl, hc, -⟩ := selectParent_eq_ok_iff.1 h
  exact ⟨List.mem_append_right before (List.mem_cons_self ..), hc⟩

end Selection

/-! ## What is put together -/

namespace Assembly

variable {fees : Fees} {t : TokenType} {g : Genesis} {plainCoins : List Coin}
  {built : Assembled GenesisSummary}

/-- What comes of a funding that suffices.  The change is what is left of it. -/
def IsCreated (fees : Fees) (t : TokenType) (g : Genesis) (message : Bytes) (parent : Option Coin)
    (receivers : List Address) (change : Address) (fee required : Satoshi) (f : Funding)
    (built : Assembled GenesisSummary) : Prop :=
  ∃ leftover : Satoshi, leftover.toInt = f.total.toInt - required.toInt ∧ 0 ≤ leftover.toInt ∧
    built = {
      draft := ⟨parent.toList ++ f.inputs, outputs fees message receivers leftover change⟩
      message
      summary :=
        { tokenType := t
          ticker := g.ticker
          initialQuantity := g.initialQuantity
          mintBatonVout := g.mintBatonVout
          fee
          change := paidChange fees leftover
          burnedParent := parent.map Coin.outpoint } }

/-- The ways in which creating a token ends. -/
inductive CreateOutcome (fees : Fees) (t : TokenType) (g : Genesis) (message : Bytes)
    (parent : Option Coin) (plainCoins : List Coin) (receivers : List Address) (change : Address) :
    Except Error (Assembled GenesisSummary) → Prop
  | overflow :
      CreateOutcome fees t g message parent plainCoins receivers change (.error .overflow)
  /-- What is paid for and from what. -/
  | funded {fee required already : Satoshi} {result : Except Error (Assembled GenesisSummary)}
      (hfee : fees.genesisFee? message.length receivers.length = some fee)
      (hrequired : required.toInt =
        fees.dustLimit.toInt * (Satoshi.ofCount receivers.length).toInt + fee.toInt)
      (halready : already.toInt = fees.worth parent.toList)
      (h : Funding.Attempt fees plainCoins already required
        (IsCreated fees t g message parent receivers change fee required) result) :
      CreateOutcome fees t g message parent plainCoins receivers change result

theorem outcome_create (fees : Fees) (t : TokenType) (g : Genesis) (message : Bytes)
    (parent : Option Coin) (plainCoins : List Coin) (receivers : List Address) (change : Address) :
    CreateOutcome fees t g message parent plainCoins receivers change
      (create fees t g message parent plainCoins receivers change) := by
  rw [create]
  refine checked_bind .overflow fun dust hdust => ?_
  refine checked_bind .overflow fun fee hfee => ?_
  refine checked_bind .overflow fun required hrequired => ?_
  rw [Satoshi.mul?_eq_some_iff] at hdust
  rw [Satoshi.add?_eq_some_iff, hdust] at hrequired
  extract_lets rest
  have hrest (already : Satoshi) (halready : already.toInt = fees.worth parent.toList) :
      CreateOutcome fees t g message parent plainCoins receivers change (rest already) := by
    dsimp only [rest]
    refine checked_bind .overflow fun f hf => ?_
    refine checked_bind .overflow fun leftover hleftover => ?_
    rw [Satoshi.sub?_eq_some_iff] at hleftover
    exact .funded hfee hrequired halready
      (.of_leftover hf hleftover fun hnonneg => ⟨leftover, hleftover, hnonneg, rfl⟩)
  rcases parent with _ | c
  · exact hrest 0 rfl
  · dsimp only
    refine checked_bind .overflow fun already halready => hrest already ?_
    rw [Satoshi.sub?_eq_some_iff] at halready
    simp [halready]

theorem create_eq_ok {message : Bytes} {parent : Option Coin} {receivers : List Address}
    {change : Address}
    (h : create fees t g message parent plainCoins receivers change = .ok built) :
    ∃ (fee required already : Satoshi) (f : Funding),
      fees.genesisFee? message.length receivers.length = some fee ∧
      required.toInt =
        fees.dustLimit.toInt * (Satoshi.ofCount receivers.length).toInt + fee.toInt ∧
      already.toInt = fees.worth parent.toList ∧
      Funding.select? fees plainCoins already required = some f ∧
      IsCreated fees t g message parent receivers change fee required f built := by
  have houtcome := outcome_create fees t g message parent plainCoins receivers change
  rw [h] at houtcome
  cases houtcome with
  | funded hfee hrequired halready hattempt =>
    cases hattempt with
    | paid hf hle hbuilt => exact ⟨_, _, _, _, hfee, hrequired, halready, hf, hbuilt⟩

/-- Creating a token has no other errors than those of its funding. -/
theorem error_of_create {message : Bytes} {parent : Option Coin} {receivers : List Address}
    {change : Address} {e : Error}
    (h : create fees t g message parent plainCoins receivers change = .error e) :
    e = .overflow ∨ ∃ required available,
      e = .selection (.insufficientCurrency required available) := by
  have houtcome := outcome_create fees t g message parent plainCoins receivers change
  rw [h] at houtcome
  cases houtcome with
  | overflow => exact .inl rfl
  | funded hfee hrequired halready hattempt =>
    cases hattempt with
    | short hf hlt => exact .inr ⟨_, _, rfl⟩

/-- A parent goes in first, and only plain coins come after it. -/
theorem inputs_of_create {message : Bytes} {parent : Option Coin} {receivers : List Address}
    {change : Address}
    (h : create fees t g message parent plainCoins receivers change = .ok built) :
    ∃ plain : List Coin, plain.Subperm plainCoins ∧
      built.draft.inputs = parent.toList ++ plain := by
  obtain ⟨_, _, _, f, -, -, -, hf, _, -, -, rfl⟩ := create_eq_ok h
  exact ⟨f.inputs, Funding.subperm_of_select? hf, rfl⟩

/-- The message reads back as a GENESIS of the type that was asked for. -/
theorem exists_message_of_create {message : Bytes} {parent : Option Coin}
    {receivers : List Address} {change : Address}
    (hmessage : Message.encodeGenesis t g = .ok message)
    (h : create fees t g message parent plainCoins receivers change = .ok built) :
    ∃ m, built.draft.message? = some m ∧ m.kind.isGenesis = true ∧ m.tokenType = t := by
  obtain ⟨_, _, _, _, -, -, -, -, _, -, -, rfl⟩ := create_eq_ok h
  obtain ⟨k, ⟨-, hoperation⟩, hdecode⟩ := Message.decode_genesis hmessage
  refine ⟨⟨t, k, none, some g.toTokenDetails, g.mintBatonVout, [g.initialQuantity]⟩, ?_,
    decide_eq_true hoperation, rfl⟩
  rw [message?_outputs, hdecode]
  rfl

theorem genesis_eq_ok {receiver : Address} {batonReceiver : Option Address} {change : Address}
    (h : genesis fees t g plainCoins receiver batonReceiver change = .ok built) :
    t ≠ .nftChild ∧ ∃ g' message,
      g' = { g with mintBatonVout := batonReceiver.map fun _ => 2 } ∧
      Message.encodeGenesis t g' = .ok message ∧
      create fees t g' message none plainCoins (receiver :: batonReceiver.toList) change =
        .ok built := by
  rw [genesis] at h
  by_cases ht : t = .nftChild
  · rw [if_pos ht] at h
    cases h
  rw [if_neg ht] at h
  dsimp only at h
  split at h
  · cases h
  next message hmessage => exact ⟨ht, _, message, rfl, hmessage, h⟩

theorem childGenesis_eq_ok {parent : TokenId} {parentCoins : List TokenCoin}
    {ticker name documentUrl : String} {receiver change : Address}
    (h : childGenesis fees parent parentCoins plainCoins ticker name documentUrl receiver change =
      .ok built) :
    ∃ burned message, Selection.selectParent parent parentCoins = .ok burned ∧
      Message.encodeGenesis .nftChild (Genesis.child ticker name documentUrl) = .ok message ∧
      create fees .nftChild (Genesis.child ticker name documentUrl) message (some burned.coin)
        plainCoins [receiver] change = .ok built := by
  rw [childGenesis] at h
  obtain ⟨burned, hburned, h⟩ := bind_eq_ok_iff.1 h
  split at h
  · cases h
  next message hmessage => exact ⟨burned, message, hburned, hmessage, h⟩

end Assembly
end SimpleLedger
