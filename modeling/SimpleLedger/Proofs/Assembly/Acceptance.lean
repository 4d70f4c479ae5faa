import SimpleLedger.Proofs.Assembly.Send

/-!
# Which payments are assembled

`Assembly.sendMany` checks five things, one after the other, and then writes the message, which
checks how many quantities there are.  `Assembly.send` checks nothing but that.  A selection is data
that anybody can put together, so here it is any selection of no more than two quantities.

* `Assembly.Refuses` is the first reason that there is to refuse a payment, and `Assembly.Accepts`
  is what has to hold for there to be none.
* `Assembly.sendMany_of_accepts`: what is accepted can always be written.
* `Assembly.sendMany_accepts_exactly`: a payment fails just for the first reason that applies.
* `Assembly.one_recipient_agrees`: it makes no difference whether a single recipient is paid as one
  or as several.
-/

set_option autoImplicit false

namespace SimpleLedger
namespace Assembly

/-! ## Reasons to refuse a payment -/

/-- How many outputs with tokens there will be.  A second quantity counts even if it is zero. -/
def outputCount (s : Selection) (recipients : List (Address × UInt64)) : Nat :=
  recipients.length + if s.quantities.length = 2 then 1 else 0

/-- The first reason that there is to refuse a payment: for each reason, those before it do not
apply. -/
inductive Refuses (s : Selection) (recipients : List (Address × UInt64)) : Error → Prop
  | noRecipients (hnil : recipients = []) : Refuses s recipients (.assembly .noRecipients)
  | emptyRequest (hne : recipients ≠ []) (hnil : s.quantities = []) :
      Refuses s recipients (.selection .emptyRequest)
  | quantityOverflow (hne : recipients ≠ []) (hquantities : s.quantities ≠ [])
      (hlt : maxQuantity < totalQuantity (recipients.map Prod.snd)) :
      Refuses s recipients (.selection .quantityOverflow)
  | amountMismatch {total : UInt64} (hne : recipients ≠ []) (hquantities : s.quantities ≠ [])
      (htotal : total.toNat = totalQuantity (recipients.map Prod.snd))
      (hdiffer : total ≠ s.requested) :
      Refuses s recipients (.assembly (.amountMismatch s.requested total))
  | tooManyOutputs (hne : recipients ≠ []) (hquantities : s.quantities ≠ [])
      (htotal : s.requested.toNat = totalQuantity (recipients.map Prod.snd))
      (hlt : 19 < outputCount s recipients) :
      Refuses s recipients (.assembly (.tooManyOutputs (outputCount s recipients)))

/-- What has to hold for there to be no reason to refuse a payment. -/
structure Accepts (s : Selection) (recipients : List (Address × UInt64)) : Prop where
  nonempty : recipients ≠ []
  quantities_ne : s.quantities ≠ []
  total_eq : s.requested.toNat = totalQuantity (recipients.map Prod.snd)
  count_le : outputCount s recipients ≤ 19

section

variable {s : Selection} {recipients : List (Address × UInt64)} {e : Error}

theorem accepts_or_refuses (s : Selection) (recipients : List (Address × UInt64)) :
    Accepts s recipients ∨ ∃ e, Refuses s recipients e := by
  by_cases hne : recipients = []
  · exact .inr ⟨_, .noRecipients hne⟩
  by_cases hquantities : s.quantities = []
  · exact .inr ⟨_, .emptyRequest hne hquantities⟩
  cases hsum : sumQuantities? (recipients.map Prod.snd) with
  | none =>
    exact .inr ⟨_, .quantityOverflow hne hquantities (sumQuantities?_eq_none_iff.1 hsum)⟩
  | some total =>
    have htotal := sumQuantities?_eq_some_iff.1 hsum
    by_cases hdiffer : total = s.requested
    swap
    · exact .inr ⟨_, .amountMismatch hne hquantities htotal hdiffer⟩
    subst hdiffer
    by_cases hcount : outputCount s recipients ≤ 19
    · exact .inl ⟨hne, hquantities, htotal, hcount⟩
    · exact .inr ⟨_, .tooManyOutputs hne hquantities htotal (Nat.lt_of_not_le hcount)⟩

theorem Refuses.not_accepts (h : Refuses s recipients e) : ¬Accepts s recipients := by
  rintro ⟨hne, hquantities, htotal, hcount⟩
  cases h with
  | noRecipients hnil => exact hne hnil
  | emptyRequest _ hnil => exact hquantities hnil
  | quantityOverflow _ _ hlt =>
    have := toNat_le_maxQuantity s.requested
    omega
  | amountMismatch _ _ htotal' hdiffer =>
    exact hdiffer (UInt64.toNat_inj.1 (htotal'.trans htotal.symm))
  | tooManyOutputs _ _ _ hlt => omega

/-! ## Several recipients -/

theorem outputCount_eq (s : Selection) (recipients : List (Address × UInt64)) :
    recipients.length + (if s.hasTokenChange then 1 else 0) = outputCount s recipients := by
  rw [outputCount, Selection.hasTokenChange]
  simp only [beq_iff_eq]

theorem sendMany_of_refuses (fees : Fees) (t : TokenType) (change : ChangeAddresses)
    (h : Refuses s recipients e) : sendMany fees s t recipients change = .error e := by
  rw [sendMany]
  simp only [outputCount_eq, List.isEmpty_iff]
  cases h with
  | noRecipients hnil => rw [if_pos hnil]
  | emptyRequest hne hnil => rw [if_neg hne, if_pos hnil]
  | quantityOverflow hne hquantities hlt =>
    rw [if_neg hne, if_neg hquantities, sumQuantities?_eq_none_iff.2 hlt]
  | amountMismatch hne hquantities htotal hdiffer =>
    rw [if_neg hne, if_neg hquantities, sumQuantities?_eq_some_iff.2 htotal]
    exact if_pos hdiffer
  | tooManyOutputs hne hquantities htotal hlt =>
    rw [if_neg hne, if_neg hquantities, sumQuantities?_eq_some_iff.2 htotal]
    exact (if_neg fun hdiffer => hdiffer rfl).trans (if_pos hlt)

/-- Of two quantities at most, the second is the change, so the message holds no more quantities
than there are outputs with tokens. -/
theorem length_withChange_le_outputCount (hlen : s.quantities.length ≤ 2) :
    (Message.withChange (recipients.map Prod.snd) (some s.tokenChange)).length ≤
      outputCount s recipients := by
  rw [Message.withChange_some, outputCount, List.length_append, List.length_map]
  by_cases hpos : 0 < s.tokenChange
  · have htwo : s.quantities.length = 2 := by
      by_contra hne
      have hnone : s.quantities[1]? = none := List.getElem?_eq_none (by omega)
      rw [Selection.tokenChange, hnone] at hpos
      exact absurd hpos (by decide)
    rw [if_pos hpos, if_pos htwo, List.length_singleton]
  · rw [if_neg hpos, List.length_nil]
    omega

/-- **What is accepted can be written.** -/
theorem sendMany_of_accepts (fees : Fees) (t : TokenType) (change : ChangeAddresses)
    (hlen : s.quantities.length ≤ 2) (h : Accepts s recipients) :
    ∃ message, Message.encodeSend t s.tokenId
        (Message.withChange (recipients.map Prod.snd) (some s.tokenChange)) = .ok message ∧
      sendMany fees s t recipients change = .ok (spend fees s t recipients message change) := by
  obtain ⟨hne, hquantities, htotal, hcount⟩ := h
  have hpos : 1 ≤ (recipients.map Prod.snd).length := by
    rw [List.length_map]
    exact List.length_pos_iff.2 hne
  have hge := hpos.trans (Message.length_withChange _ (some s.tokenChange)).1
  have hle := (length_withChange_le_outputCount hlen).trans hcount
  obtain ⟨message, hmessage⟩ : ∃ message, Message.encodeSend t s.tokenId
      (Message.withChange (recipients.map Prod.snd) (some s.tokenChange)) = .ok message :=
    ⟨_, Message.encodeSend_eq_ok_iff.2 ⟨⟨hge, hle⟩, rfl⟩⟩
  refine ⟨message, hmessage, ?_⟩
  rw [sendMany]
  simp only [outputCount_eq, List.isEmpty_iff]
  rw [if_neg hne, if_neg hquantities, sumQuantities?_eq_some_iff.2 htotal]
  dsimp only
  rw [if_neg fun hdiffer => hdiffer rfl, Message.maxQuantities, if_neg (Nat.not_lt.2 hcount),
    Message.encodePayments_eq, hmessage]

/-- **Payments fail just for the first reason that applies**, and succeed if there is none, where
the selection has at most two quantities.  That the message cannot be written is not among the
reasons. -/
theorem sendMany_accepts_exactly (fees : Fees) (t : TokenType) (change : ChangeAddresses)
    (recipients : List (Address × UInt64)) (hlen : s.quantities.length ≤ 2) :
    (∀ e, sendMany fees s t recipients change = .error e ↔ Refuses s recipients e) ∧
    ((∃ built, sendMany fees s t recipients change = .ok built) ↔ ∀ e, ¬Refuses s recipients e) ∧
    ((∃ built, sendMany fees s t recipients change = .ok built) ↔ Accepts s recipients) ∧
    ∀ e, sendMany fees s t recipients change ≠ .error (.message e) := by
  rcases accepts_or_refuses s recipients with haccepts | ⟨e, hrefuses⟩
  · obtain ⟨message, -, hbuilt⟩ := sendMany_of_accepts fees t change hlen haccepts
    rw [hbuilt]
    exact ⟨fun e => iff_of_false nofun fun h => h.not_accepts haccepts,
      iff_of_true ⟨_, rfl⟩ fun e h => h.not_accepts haccepts, iff_of_true ⟨_, rfl⟩ haccepts, nofun⟩
  · rw [sendMany_of_refuses fees t change hrefuses]
    refine ⟨fun e' => ⟨fun h => ?_, fun h => ?_⟩, iff_of_false nofun fun h => h e hrefuses,
      iff_of_false nofun hrefuses.not_accepts, fun e' h => ?_⟩
    · cases h
      exact hrefuses
    · rw [← sendMany_of_refuses fees t change h, sendMany_of_refuses fees t change hrefuses]
    · cases h
      cases hrefuses

/-- A second quantity of zero counts as an output, though the message leaves it out. -/
theorem sendMany_accepts_exactly_sample :
    ∃ (s : Selection) (a : Address × UInt64), s.quantities.length ≤ 2 ∧ s.quantities = [19, 0] ∧
      sendMany {} s .fungible (List.replicate 19 a) (.single ⟨"c"⟩) =
        .error (.assembly (.tooManyOutputs 20)) ∧
      sendMany {} s .fungible (List.replicate 18 a) (.single ⟨"c"⟩) =
        .error (.assembly (.amountMismatch 19 18)) ∧
      ∃ built, sendMany {} s .fungible (a :: [(a.1, 18)]) (.single ⟨"c"⟩) = .ok built := by
  let s : Selection := ⟨⟨⟨List.replicate 32 7, rfl⟩⟩, [19, 0], 0, 0, 0, [], 0, 0⟩
  let a : Address × UInt64 := (⟨"a"⟩, 1)
  have hlen : s.quantities.length ≤ 2 := by decide
  have hexactly (recipients : List (Address × UInt64)) :=
    sendMany_accepts_exactly {} .fungible (.single ⟨"c"⟩) recipients hlen
  refine ⟨s, a, hlen, rfl, (hexactly _).1 _ |>.2 ?_, (hexactly _).1 _ |>.2 ?_,
    (hexactly _).2.2.1.2 ?_⟩
  · exact .tooManyOutputs (by decide) (by decide) (by decide) (by decide)
  · exact .amountMismatch (by decide) (by decide) (by decide) (by decide)
  · exact ⟨by decide, by decide, by decide, by decide⟩

/-! ## A single recipient -/

/-- **One recipient may be paid either way.**  Whatever a selection was made for, paying a single
recipient all that was asked for succeeds, and comes to the same transaction, message and summary
as paying several recipients, of whom there happens to be one.  The fees need not be those of the
selection. -/
theorem one_recipient_agrees {fees : Fees} {id : TokenId} {amounts : List UInt64}
    {tokenCoins : List TokenCoin} {plainCoins : List Coin}
    (hs : Selection.select fees id amounts tokenCoins plainCoins = .ok s) (fees' : Fees)
    (t : TokenType) (recipient : Address) (change : ChangeAddresses) :
    ∃ built, send fees' s t recipient change = .ok built ∧
      sendMany fees' s t [(recipient, s.requested)] change = .ok built := by
  have hs := Selection.selects_of_select hs
  have hlen : s.quantities.length ≤ 2 := by
    rw [hs.quantities_eq]
    split
    · exact Nat.le_refl 2
    · exact Nat.le_succ 1
  have haccepts : Accepts s [(recipient, s.requested)] := by
    refine ⟨List.cons_ne_nil _ _, ?_, ?_, ?_⟩
    · rw [hs.quantities_eq]
      exact List.cons_ne_nil _ _
    · rw [List.map_singleton, totalQuantity_cons, totalQuantity_nil, Nat.add_zero]
    · rw [outputCount, List.length_singleton]
      split <;> decide
  obtain ⟨message, hmessage, hbuilt⟩ := sendMany_of_accepts fees' t change hlen haccepts
  -- the quantities that were stored are those that would be put together again
  rw [List.map_singleton, ← quantities_eq_withChange hs] at hmessage
  refine ⟨_, ?_, hbuilt⟩
  rw [send, hmessage]

/-- A selection that was made for two amounts pays a single recipient both of them, under other
fees than its own. -/
theorem one_recipient_agrees_sample :
    sampleSelection.requested = 50 ∧
      ∃ built, send { dustLimit := 1000 } sampleSelection .nftParent ⟨"a"⟩ (.single ⟨"c"⟩) =
          .ok built ∧
        sendMany { dustLimit := 1000 } sampleSelection .nftParent [(⟨"a"⟩, 50)] (.single ⟨"c"⟩) =
          .ok built :=
  ⟨rfl, one_recipient_agrees select_sample { dustLimit := 1000 } .nftParent ⟨"a"⟩ (.single ⟨"c"⟩)⟩

end

end Assembly
end SimpleLedger
