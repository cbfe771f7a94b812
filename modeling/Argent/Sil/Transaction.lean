import Mathlib.Data.List.Nodup
import Mathlib.Tactic.Common

/-!
# Covenant transactions

Transactions whose inputs and outputs carry covenant ids, as covenant scripts see them.  An output
of a covenant names one authorizing input; it continues the covenant when that input carries the
same covenant id, and creates it otherwise.

* `Transaction.covInputs`, `covOutputs`     the inputs and the continuation outputs of a covenant;
* `Transaction.authOutputs`      the continuation outputs that one input authorizes;
* `authOutputs_eq_covOutputs`    **an input that authorizes as many outputs as the covenant has
                                 authorizes all of them**.
-/

set_option linter.unusedSectionVars false

namespace Argent.Sil

abbrev Bytes := List UInt8

/-! ## transactions -/

structure Outpoint where
  transactionId : Bytes
  index : UInt32
deriving DecidableEq, Repr

/-- the covenant of an output and the one input that authorizes it -/
structure CovenantBinding where
  authorizingInput : Nat
  covenantId : Bytes
deriving DecidableEq, Repr

/-- an input spends a contract: a template, known by its hash, at a state -/
structure TransactionInput where
  outpoint : Outpoint
  covenantId : Option Bytes
  template : Bytes
  state : Bytes
deriving DecidableEq, Repr

structure TransactionOutput where
  value : UInt64
  version : UInt16
  script : Bytes
  covenant : Option CovenantBinding
deriving DecidableEq, Repr

structure Transaction where
  inputs : List TransactionInput
  outputs : List TransactionOutput
deriving DecidableEq, Repr

namespace Transaction

/-- the covenant id carried by the input at `index` -/
def inputCovenantId (tx : Transaction) (index : Nat) : Option Bytes :=
  tx.inputs[index]?.bind (·.covenantId)

/-- the covenant of the output at `index` -/
def outputBinding (tx : Transaction) (index : Nat) : Option CovenantBinding :=
  tx.outputs[index]?.bind (·.covenant)

/-- whether the output at `index` continues the covenant of the input that authorizes it -/
def isContinuation (tx : Transaction) (index : Nat) : Bool :=
  (tx.outputBinding index).any fun binding =>
    decide (tx.inputCovenantId binding.authorizingInput = some binding.covenantId)

/-- the inputs of a covenant, in transaction order -/
def covInputs (tx : Transaction) (covenant : Bytes) : List Nat :=
  (List.range tx.inputs.length).filter fun index =>
    decide (tx.inputCovenantId index = some covenant)

/-- the continuation outputs of a covenant, in transaction order -/
def covOutputs (tx : Transaction) (covenant : Bytes) : List Nat :=
  (List.range tx.outputs.length).filter fun index =>
    tx.isContinuation index &&
      decide ((tx.outputBinding index).map (·.covenantId) = some covenant)

/-- the continuation outputs that the input authorizes, in transaction order -/
def authOutputs (tx : Transaction) (input : Nat) : List Nat :=
  (List.range tx.outputs.length).filter fun index =>
    tx.isContinuation index &&
      decide ((tx.outputBinding index).map (·.authorizingInput) = some input)

variable {tx : Transaction} {covenant : Bytes} {input index : Nat}

theorem mem_covInputs : index ∈ tx.covInputs covenant ↔ tx.inputCovenantId index = some covenant := by
  unfold covInputs
  rw [List.mem_filter, List.mem_range, decide_eq_true_eq]
  refine ⟨fun h => h.2, fun h => ⟨?_, h⟩⟩
  unfold inputCovenantId at h
  obtain ⟨_, hinput, _⟩ := Option.bind_eq_some_iff.mp h
  exact (List.getElem?_eq_some_iff.mp hinput).1

theorem mem_authOutputs : index ∈ tx.authOutputs input ↔
    ∃ binding, tx.outputBinding index = some binding ∧ binding.authorizingInput = input ∧
      tx.inputCovenantId input = some binding.covenantId := by
  unfold authOutputs isContinuation
  rw [List.mem_filter, List.mem_range, Bool.and_eq_true, decide_eq_true_eq, Option.any_eq_true]
  constructor
  · intro ⟨_, ⟨binding, hbinding, hcovenant⟩, hinput⟩
    rw [hbinding, Option.map_some, Option.some_inj] at hinput
    exact ⟨binding, hbinding, hinput, hinput ▸ of_decide_eq_true hcovenant⟩
  · intro ⟨binding, hbinding, hinput, hcovenant⟩
    refine ⟨?_, ⟨binding, hbinding, decide_eq_true (hinput ▸ hcovenant)⟩, ?_⟩
    · obtain ⟨_, houtput, _⟩ := Option.bind_eq_some_iff.mp hbinding
      exact (List.getElem?_eq_some_iff.mp houtput).1
    · rw [hbinding, Option.map_some, hinput]

/-- distinct inputs authorize disjoint outputs -/
theorem authOutputs_disjoint {other : Nat} (h : index ∈ tx.authOutputs input)
    (hother : index ∈ tx.authOutputs other) : input = other := by
  obtain ⟨binding, hbinding, hinput, _⟩ := mem_authOutputs.mp h
  obtain ⟨binding', hbinding', hother, _⟩ := mem_authOutputs.mp hother
  rw [hbinding, Option.some_inj] at hbinding'
  rw [← hinput, ← hother, hbinding']

/-- an input of the covenant authorizes outputs of the covenant, in the same order -/
theorem authOutputs_sublist (h : tx.inputCovenantId input = some covenant) :
    (tx.authOutputs input).Sublist (tx.covOutputs covenant) := by
  unfold authOutputs covOutputs
  refine List.monotone_filter_right _ fun index hindex => ?_
  obtain ⟨hcont, hinput⟩ := Bool.and_eq_true_iff.mp hindex
  refine Bool.and_eq_true_iff.mpr ⟨hcont, decide_eq_true ?_⟩
  obtain ⟨binding, hbinding, hauth⟩ := Option.map_eq_some_iff.mp (of_decide_eq_true hinput)
  unfold isContinuation at hcont
  rw [hbinding, Option.any_some, decide_eq_true_eq, hauth, h] at hcont
  rw [hbinding, Option.map_some, hcont]

/-- **An input that authorizes as many outputs as the covenant has authorizes all of them.** -/
theorem authOutputs_eq_covOutputs (h : tx.inputCovenantId input = some covenant)
    (hcount : (tx.covOutputs covenant).length = (tx.authOutputs input).length) :
    tx.authOutputs input = tx.covOutputs covenant :=
  (authOutputs_sublist h).eq_of_length hcount.symm

theorem authOutputs_eq_nil {other : Nat} (h : tx.inputCovenantId other = some covenant)
    (hall : tx.authOutputs input = tx.covOutputs covenant) (hne : other ≠ input) :
    tx.authOutputs other = [] := by
  refine List.eq_nil_iff_forall_not_mem.mpr fun index hindex => hne ?_
  have hcov := (authOutputs_sublist h).subset hindex
  rw [← hall] at hcov
  exact authOutputs_disjoint hindex hcov

end Transaction
end Argent.Sil
