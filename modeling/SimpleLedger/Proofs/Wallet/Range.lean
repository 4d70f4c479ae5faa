import SimpleLedger.Proofs.Assembly.Range
import SimpleLedger.Proofs.Wallet.Conservation
import SimpleLedger.Proofs.Wallet.Invariant

/-!
# No action breaks off

Building a transaction breaks off when an amount leaves the range.  On a backend of ordinary size
that never happens, whatever the order of the steps of actions that run side by side.

* `Procedure.Always` is a postcondition of a procedure that runs among others: it is told what to
  rely on in the backends that answer its calls.  `Always.bind` composes them, and `Always.advance`
  says that steps preserve them.
* `Act.Completes` is the postcondition that rules out breaking off, with one lemma for each word in
  which actions are written, and `Action.completes` says that it holds of every action.
* `stays_in_range` puts it together with what is built outside of a wallet.
-/

set_option autoImplicit false

namespace SimpleLedger
namespace Wallet

/-! ## Postconditions -/

namespace Procedure

variable {α β : Type} {rely : Backend → Prop} {post : α → Prop} {post' : β → Prop}

/-- Whatever backends answer on which it may rely, the postcondition holds of the result.  Every
call may be answered by another backend, since others take steps in between. -/
def Always (rely : Backend → Prop) (post : α → Prop) : Procedure α → Prop
  | .done a => post a
  | .call c next => ∀ b, rely b → (next (b.answer c).1).Always rely post
  | .pause next | .lock next | .unlock next => next.Always rely post

theorem Always.bind {p : Procedure α} {f : α → Procedure β} (h : p.Always rely post)
    (hf : ∀ a, post a → (f a).Always rely post') : (p.bind f).Always rely post' := by
  induction p with
  | done a => exact hf a h
  | call c next ih => exact fun b hb => ih _ (h b hb)
  | pause next ih => exact ih h
  | lock next ih => exact ih h
  | unlock next ih => exact ih h

/-- A step preserves the postcondition, if calls preserve what is relied on. -/
theorem Always.advance (hrely : ∀ b c, rely b → rely (b.answer c).2) {b : Backend} (hb : rely b)
    {p : Procedure α} (h : p.Always rely post) (i : Nat) (holder : Option Nat) :
    (Machine.advance i holder b p).1.Always rely post ∧
      rely (Machine.advance i holder b p).2.2 := by
  cases p with
  | done a => exact ⟨h, hb⟩
  | call c next => exact ⟨h b hb, hrely b c hb⟩
  | pause next => exact ⟨h, hb⟩
  | lock next => cases holder <;> exact ⟨h, hb⟩
  | unlock next => exact ⟨h, hb⟩

end Procedure

/-! ## Acts that do not break off -/

theorem ofBuild_ne_task {e : Error} (h : e ≠ .overflow) : WalletError.ofBuild e ≠ .task := by
  cases e with
  | overflow => exact absurd rfl h
  | _ => rintro ⟨⟩

theorem Backend.error_answer_ne_task {b : Backend} {c : Call} {e : WalletError}
    (h : (b.answer c).1 = .error e) : e ≠ .task := by
  rw [answer] at h
  dsimp only at h
  split at h
  · cases h
    rintro ⟨⟩
  · cases c <;> cases h

/-- A result that is good, or an error other than breaking off. -/
def Unbroken {α : Type} (good : α → Prop) : Except WalletError α → Prop
  | .ok a => good a
  | .error e => e ≠ .task

/-- Does not break off, and what is returned is good. -/
def Act.Completes {α : Type} (rely : Backend → Prop) (good : α → Prop) (act : Act α) : Prop :=
  act.run.Always rely (Unbroken good)

section

variable {α β : Type} {rely : Backend → Prop} {good : α → Prop} {good' : β → Prop}

theorem completes_bind {act : Act α} {f : α → Act β} (h : act.Completes rely good)
    (hf : ∀ a, good a → (f a).Completes rely good') : (act >>= f).Completes rely good' := by
  refine Procedure.Always.bind h fun r hr => ?_
  cases r with
  | error e => exact hr
  | ok a => exact hf a hr

theorem completes_fail {e : WalletError} (he : e ≠ .task) :
    (Act.fail e : Act α).Completes rely good := he

theorem completes_ask (c : Call) :
    (Act.ask c).Completes rely fun a => ∃ b, rely b ∧ a = (b.perform c).1 := by
  intro b hb
  cases hr : (b.answer c).1 with
  | error e => exact Backend.error_answer_ne_task hr
  | ok a => exact ⟨b, hb, Backend.eq_perform_of_answer hr⟩

theorem completes_build {result : Except Error α} (h : result ≠ .error .overflow) :
    (Act.build result).Completes rely fun _ => True := by
  cases result with
  | error e => exact ofBuild_ne_task fun he => h (congrArg Except.error he)
  | ok a => trivial

theorem completes_broadcast (d : Draft) : (Act.broadcast d).Completes rely fun _ => True := by
  intro b _
  cases hr : (b.answer (.broadcast d)).1 with
  | error e => exact Backend.error_answer_ne_task hr
  | ok id => trivial

theorem completes_locked {act : Act α} (h : act.Completes rely good) :
    (Act.locked act).Completes rely good :=
  Procedure.Always.bind h fun _ hr => hr

theorem completes_descriptor (id : TokenId) : (descriptor id).Completes rely fun _ => True := by
  refine completes_bind (completes_ask (.tokenDescriptor id)) fun found _ => ?_
  cases found with
  | none => exact completes_fail (by rintro ⟨⟩)
  | some token => trivial

theorem completes_checkNetwork (config : Config) (addresses : List Address) :
    (checkNetwork config addresses).Completes rely fun _ => True := by
  rw [checkNetwork]
  split
  · exact completes_fail (by rintro ⟨⟩)
  · trivial

end

/-! ## Actions -/

/-- The coins of a backend are neither too many nor worth too much. -/
structure Backend.CoinsSized (b : Backend) : Prop where
  tokens : Sized (b.tokens.map TokenCoin.coin)
  plain : Sized b.plain

namespace Backend.CoinsSized

variable {b : Backend}

theorem answer (c : Call) (h : b.CoinsSized) : (b.answer c).2.CoinsSized := by
  have hremains := b.remains_answer c
  exact ⟨h.tokens.of_subperm (hremains.tokens.map _).subperm,
    h.plain.of_subperm hremains.plain.subperm⟩

theorem tokenCoinsOf (h : b.CoinsSized) (id : TokenId) (unconfirmed : Bool) :
    Sized ((b.tokenCoinsOf id unconfirmed).map TokenCoin.coin) :=
  h.tokens.of_subperm ((b.tokenCoinsOf_sublist id unconfirmed).map _).subperm

theorem spendable (h : b.CoinsSized) (unconfirmed : Bool) :
    Sized (Backend.spendable unconfirmed b.plainCoins) :=
  h.plain.of_subperm (Backend.spendable_sublist unconfirmed b.plainCoins).subperm

end Backend.CoinsSized

theorem buildPayment_ne_overflow {fees : Fees} (hfees : fees.Modest) {tokenCoins : List TokenCoin}
    {plainCoins : List Coin} (htokens : Sized (tokenCoins.map TokenCoin.coin))
    (hplain : Sized plainCoins) {recipients : List (Address × UInt64)}
    (hcount : recipients.length ≤ 2 ^ 20) (token : Descriptor) (change : ChangeAddresses) :
    buildPayment fees token recipients tokenCoins plainCoins change ≠ .error .overflow := by
  have hamounts : (recipients.map Prod.snd).length ≤ 2 ^ 20 := by rwa [List.length_map]
  intro h
  rw [buildPayment] at h
  rcases bind_eq_error_iff.1 h with h | ⟨s, hs, h⟩
  · exact Selection.select_ne_overflow hfees htokens hplain hamounts _ h
  · have hs := Selection.selects_of_select hs
    split at h
    · exact (Assembly.send_staysInRange hfees hfees htokens hplain hamounts hs _ _ _).1 h
    · exact (Assembly.sendMany_staysInRange hfees hfees htokens hplain hamounts hs hcount _ _).1 h

section

variable {config : Config}

theorem completes_pay (hfees : config.fees.Modest) (token : Descriptor)
    {recipients : List (Address × UInt64)} (hcount : recipients.length ≤ 2 ^ 20) :
    (pay config token recipients).Completes Backend.CoinsSized fun _ => True := by
  rw [pay]
  split
  · exact completes_fail (by rintro ⟨⟩)
  refine completes_bind (completes_checkNetwork config _) fun _ _ => completes_locked ?_
  refine completes_bind (completes_ask _) ?_
  rintro tokenCoins ⟨b, hb, rfl⟩
  refine completes_bind (completes_ask _) ?_
  rintro plainCoins ⟨b', hb', rfl⟩
  refine completes_bind (completes_ask _) fun tokens _ => ?_
  refine completes_bind (completes_ask _) fun currency _ => ?_
  have hbuild := buildPayment_ne_overflow hfees (hb.tokenCoinsOf token.tokenId
    config.allowUnconfirmed) (hb'.spendable config.allowUnconfirmed) hcount token
    ⟨tokens, currency⟩
  exact completes_bind (completes_build hbuild) fun built _ => completes_broadcast built.draft

/-- **No action breaks off** on coins of ordinary size. -/
theorem Action.completes (hfees : config.fees.Modest) (a : Action)
    (hcount : a.payees.length ≤ 2 ^ 20) :
    (a.procedure config).Always Backend.CoinsSized (Unbroken fun _ => True) := by
  cases a with
  | send id amount recipient =>
    refine completes_bind (completes_descriptor id) fun token _ => ?_
    split
    · exact completes_fail (by rintro ⟨⟩)
    next raw _ => exact completes_pay hfees token hcount
  | sendNft id recipient =>
    refine completes_bind (completes_descriptor id) fun token _ => ?_
    split
    · exact completes_pay hfees token hcount
    · exact completes_fail (by rintro ⟨⟩)
  | sendMany id recipients =>
    refine completes_bind (completes_descriptor id) fun token _ => completes_pay hfees token ?_
    rwa [payees, List.length_map] at hcount
  | create tokenType g receiver batonReceiver =>
    refine completes_bind (completes_checkNetwork config _) fun _ _ => completes_locked ?_
    refine completes_bind (completes_ask _) ?_
    rintro plainCoins ⟨b, hb, rfl⟩
    refine completes_bind (completes_ask _) fun change _ => ?_
    have hbuild := Assembly.genesis_staysInRange hfees (hb.spendable config.allowUnconfirmed)
      tokenType g receiver batonReceiver change
    exact completes_bind (completes_build hbuild.1) fun built _ => completes_broadcast built.draft
  | createChild parent ticker name documentUrl receiver =>
    refine completes_bind (completes_checkNetwork config _) fun _ _ => completes_locked ?_
    refine completes_bind (completes_ask _) ?_
    rintro parentCoins ⟨b, hb, rfl⟩
    refine completes_bind (completes_ask _) ?_
    rintro plainCoins ⟨b', hb', rfl⟩
    refine completes_bind (completes_ask _) fun change _ => ?_
    have hbuild := Assembly.childGenesis_staysInRange hfees
      (hb.tokenCoinsOf parent config.allowUnconfirmed) (hb'.spendable config.allowUnconfirmed)
      parent ticker name documentUrl receiver change
    exact completes_bind (completes_build hbuild.1) fun built _ => completes_broadcast built.draft

/-- Actions side by side do not break off, whatever the order of their steps. -/
theorem Machine.exec_ne_task (hfees : config.fees.Modest) {b : Backend} (hb : b.CoinsSized)
    {actions : List Action} (hcount : ∀ a ∈ actions, a.payees.length ≤ 2 ^ 20)
    {schedule : List Nat} {i : Nat} {r : Outcome}
    (h : ((start b (actions.map (Action.procedure config))).exec schedule).procedures[i]? =
      some (.done r)) : r ≠ .error .task := by
  have hstart : ∀ (i : Nat) (p : Procedure Outcome),
      (start b (actions.map (Action.procedure config))).procedures[i]? = some p →
        p.Always Backend.CoinsSized (Unbroken fun _ => True) := by
    intro i p hp
    obtain ⟨a, ha, rfl⟩ := exists_of_start hp
    exact a.completes hfees (hcount a (List.mem_of_getElem? ha))
  obtain ⟨-, hdone⟩ := exec_invariant (fun i holder b p hb hp =>
    hp.advance (fun b c hb => hb.answer c) hb i holder) hb hstart schedule
  have hr := hdone i _ h
  rintro rfl
  exact hr rfl

end

/-! ## All amounts -/

/-- **Amounts stay in range** on a ledger of ordinary size.  Let no term of the fees be negative or
more than a million or so, nor the coins of either sort nor the entries of a list be more in number,
and let the coins together be worth no more than 21 million units.  Then no selection overflows.
Neither does assembling what was selected, for one recipient or for any list of them and under any
such fees, nor creating a token or a child, and the transactions have an implied fee.  Nor does an
action of a wallet that holds these coins, in any run of actions. -/
theorem stays_in_range {fees : Fees} {tokenCoins : List TokenCoin} {plainCoins : List Coin}
    (hfees : fees.Modest) (hcoins : LedgerSized tokenCoins plainCoins) :
    (∀ (id : TokenId) (amounts : List UInt64), amounts.length ≤ 2 ^ 20 →
      Selection.select fees id amounts tokenCoins plainCoins ≠ .error .overflow ∧
      ∀ s, Selection.select fees id amounts tokenCoins plainCoins = .ok s →
        ∀ (fees' : Fees) (t : TokenType) (change : ChangeAddresses), fees'.Modest →
          (∀ recipient, Assembly.StaysInRange (Assembly.send fees' s t recipient change)) ∧
          ∀ recipients : List (Address × UInt64), recipients.length ≤ 2 ^ 20 →
            Assembly.StaysInRange (Assembly.sendMany fees' s t recipients change)) ∧
    (∀ (t : TokenType) (g : Genesis) (receiver : Address) (batonReceiver : Option Address)
      (change : Address), Assembly.StaysInRange
        (Assembly.genesis fees t g plainCoins receiver batonReceiver change)) ∧
    (∀ (parent : TokenId) (ticker name documentUrl : String) (receiver change : Address),
      Assembly.StaysInRange (Assembly.childGenesis fees parent tokenCoins plainCoins ticker name
        documentUrl receiver change)) ∧
    ∀ (config : Config) (b : Backend) (actions : List Action) (schedule : List Nat),
      config.fees = fees → b.tokens = tokenCoins → b.plain = plainCoins →
      (∀ a ∈ actions, a.payees.length ≤ 2 ^ 20) →
        ∀ (i : Nat) (r : Outcome),
          ((Machine.start b (actions.map (Action.procedure config))).exec schedule).procedures[i]? =
            some (.done r) → r ≠ .error .task := by
  have htokens := hcoins.tokens
  have hplain := hcoins.plain
  refine ⟨fun id amounts hamounts => ⟨?_, fun s hs fees' t change hfees' => ?_⟩, ?_, ?_, ?_⟩
  · exact Selection.select_ne_overflow hfees htokens hplain hamounts id
  · have hs := Selection.selects_of_select hs
    exact ⟨fun recipient => Assembly.send_staysInRange hfees hfees' htokens hplain hamounts hs t
      recipient change, fun recipients hcount => Assembly.sendMany_staysInRange hfees hfees' htokens
      hplain hamounts hs hcount t change⟩
  · exact Assembly.genesis_staysInRange hfees hplain
  · exact Assembly.childGenesis_staysInRange hfees htokens hplain
  · rintro config b actions schedule rfl rfl rfl hcount i r h
    exact Machine.exec_ne_task hfees ⟨htokens, hplain⟩ hcount h

theorem ledgerSized_sample : LedgerSized sampleBackend.tokens sampleBackend.plain := by
  constructor <;> decide

/-- A child and a payment side by side. -/
theorem stays_in_range_sample :
    (∃ s, Selection.select {} Assembly.sampleToken [30] sampleBackend.tokens sampleBackend.plain =
        .ok s ∧
      Assembly.StaysInRange (Assembly.send {} s .nftParent ⟨"a"⟩ (.single ⟨"c"⟩))) ∧
    (∃ built fee, Assembly.childGenesis {} Assembly.sampleToken sampleBackend.tokens
        sampleBackend.plain "C" "" "" ⟨"a"⟩ ⟨"d"⟩ = .ok built ∧
      built.draft.impliedFee? = some fee) ∧
    ∀ (schedule : List Nat) (i : Nat) (r : Outcome),
      ((Machine.start sampleBackend ([sampleChild, sampleSend].map (Action.procedure {}))).exec
        schedule).procedures[i]? = some (.done r) → r ≠ .error .task := by
  obtain ⟨hselect, -, hchild, hwallet⟩ := stays_in_range Fees.modest_default ledgerSized_sample
  have hs : ∃ s, Selection.select {} Assembly.sampleToken [30] sampleBackend.tokens
      sampleBackend.plain = .ok s := ⟨_, by cbv⟩
  have hbuilt : ∃ built, Assembly.childGenesis {} Assembly.sampleToken sampleBackend.tokens
      sampleBackend.plain "C" "" "" ⟨"a"⟩ ⟨"d"⟩ = .ok built := ⟨_, by cbv⟩
  obtain ⟨s, hs⟩ := hs
  obtain ⟨built, hbuilt⟩ := hbuilt
  obtain ⟨fee, hfee⟩ := (hchild _ _ _ _ _ _).2 built hbuilt
  refine ⟨⟨s, hs, ?_⟩, ⟨built, fee, hbuilt, hfee⟩, fun schedule => ?_⟩
  · exact ((hselect _ [30] (by decide)).2 s hs {} .nftParent (.single ⟨"c"⟩)
      Fees.modest_default).1 ⟨"a"⟩
  · exact hwallet {} sampleBackend [sampleChild, sampleSend] schedule rfl rfl rfl (by decide)

end Wallet
end SimpleLedger
