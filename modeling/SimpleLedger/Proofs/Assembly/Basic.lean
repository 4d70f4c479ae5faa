import SimpleLedger.Assembly.Basic
import SimpleLedger.Message.Decode
import SimpleLedger.Proofs.Funding
import SimpleLedger.Proofs.Hex
import SimpleLedger.Proofs.Satoshi

/-!
# What every assembled transaction has

The totals of a draft as sums of integers, and what holds of the outputs of a transaction whatever
its message is: the message can be read off the first output, and no other output is worth less
than the dust limit.
-/

set_option autoImplicit false

namespace SimpleLedger

/-! ## Totals -/

/-- What the inputs are worth, fees for spending them not counted. -/
def Draft.inputSum (d : Draft) : Int := (d.inputs.map fun c => c.value.toInt).sum

/-- What the outputs are worth. -/
def Draft.outputSum (d : Draft) : Int := (d.outputs.map fun o => o.value.toInt).sum

theorem Draft.toInt_of_impliedFee? {d : Draft} {fee : Satoshi} (h : d.impliedFee? = some fee) :
    fee.toInt = d.inputSum - d.outputSum := by
  simp only [impliedFee?, Option.bind_eq_bind, Option.bind_eq_some_iff,
    Satoshi.sub?_eq_some_iff] at h
  obtain ⟨inputs, hinputs, outputs, houtputs, hfee⟩ := h
  rw [hfee, Satoshi.toInt_of_sum? hinputs, Satoshi.toInt_of_sum? houtputs, List.map_map,
    List.map_map]
  rfl

/-- What the message of a draft reads as. -/
def Draft.message? (d : Draft) : Option Message :=
  d.messageScript?.bind fun s => (Message.decode s).toOption

namespace Assembly

/-! ## Outputs -/

variable {fees : Fees} {message : Bytes} {receivers : List Address} {leftover : Satoshi}
  {address : Address}

/-- The first output of every transaction is its message. -/
theorem messageScript?_outputs (inputs : List Coin) :
    Draft.messageScript? ⟨inputs, outputs fees message receivers leftover address⟩ =
      some message := by
  simp only [outputs, List.cons_append, Draft.messageScript?, Output.ofMessage, Hex.decode_encode]
  rfl

theorem message?_outputs (inputs : List Coin) :
    Draft.message? ⟨inputs, outputs fees message receivers leftover address⟩ =
      (Message.decode message).toOption := by
  rw [Draft.message?, messageScript?_outputs, Option.bind_some]

theorem dustLimit_le_of_mem {a : Address} {v : Satoshi}
    (h : .payTo a v ∈ outputs fees message receivers leftover address) : fees.dustLimit ≤ v := by
  rw [outputs, List.cons_append, List.mem_cons, List.mem_append, List.mem_map] at h
  rcases h with h | ⟨b, -, h⟩ | h
  · cases h
  · cases h
    exact Int64.le_refl _
  · rw [changeOutputs] at h
    split at h
    next hle =>
      rw [List.mem_singleton] at h
      cases h
      exact hle
    next => cases h

theorem sum_value_payTo (as : List Address) (dust : Satoshi) :
    ((as.map (Output.payTo · dust)).map fun o => o.value.toInt).sum =
      dust.toInt * as.length := by
  induction as with
  | nil => simp
  | cons a as ih =>
    rw [List.map_cons, List.map_cons, List.sum_cons, ih, List.length_cons, Int.natCast_succ,
      Int.mul_add]
    simp only [Output.value]
    omega

theorem sum_value_changeOutputs (fees : Fees) (change : Satoshi) (address : Address) :
    ((changeOutputs fees change address).map fun o => o.value.toInt).sum =
      (paidChange fees change).toInt := by
  rw [changeOutputs, paidChange]
  split
  · rw [List.map_singleton, List.sum_singleton]
    rfl
  · rfl

/-- The outputs are worth dust for each receiver, and the change. -/
theorem outputSum_outputs (fees : Fees) (inputs : List Coin) (message : Bytes)
    (receivers : List Address) (leftover : Satoshi) (address : Address) :
    Draft.outputSum ⟨inputs, outputs fees message receivers leftover address⟩ =
      fees.dustLimit.toInt * receivers.length + (paidChange fees leftover).toInt := by
  rw [Draft.outputSum, outputs, List.cons_append, List.map_cons, List.sum_cons, List.map_append,
    List.sum_append, sum_value_payTo, sum_value_changeOutputs]
  exact Int.zero_add _

end Assembly
end SimpleLedger
