import Argent.Genesis.Binding
import Argent.Sil.Transaction

/-!
# Genesis groups of a transaction

What the chain promises about the outputs of a transaction that create covenants: an id is the hash
of the outpoint of the authorizing input and of all outputs of the group.

* `createdOutputs`      the outputs that create a covenant under an input;
* `genesisPreimage`      what an id is hashed from;
* `Consensus`           what is known of a transaction that was accepted;
* `Consensus.created_of_id`      **the id of an output tells the group: an output with the id of a
                                 preimage is in the group that the preimage describes**.
-/

set_option linter.unusedSectionVars false

namespace Argent.Genesis
open Argent.Artifacts Argent.Runtime
open Argent.Sil (Bytes)

/-! ## groups and ids -/

/-- the outputs that create the covenant `id` under `input`, with their indices: an input that
carries `id` continues it instead -/
def createdOutputs (tx : Sil.Transaction) (input : Nat) (id : Bytes) :
    List (Sil.TransactionOutput × Nat) :=
  tx.outputs.zipIdx.filter fun item =>
    decide (item.1.covenant = some ⟨input, id⟩ ∧ tx.inputCovenantId input ≠ some id)

/-- an output with its index as ids commit to it -/
def preimageItem (item : Sil.TransactionOutput × Nat) : UInt32 × TransactionOutput :=
  (UInt32.ofNat item.2, ⟨item.1.value, ⟨item.1.version, item.1.script⟩, none⟩)

/-- what the id of a group is hashed from -/
def genesisPreimage (outpoint : Sil.Outpoint) (outputs : List (UInt32 × TransactionOutput)) : Bytes :=
  outpoint.transactionId ++ littleEndian 4 outpoint.index.toNat ++ counted 8 outputPreimage outputs

/-- the preimage is the one that genesis proofs hash -/
theorem genesisPreimage_eq {outpoint : TransactionOutpoint}
    {outputs : List (UInt32 × TransactionOutput)} :
    genesisPreimage ⟨outpoint.transactionId.bytes, outpoint.index⟩ outputs =
      covenantIdPreimage outpoint outputs := rfl

/-- a group as it can stand in a preimage -/
structure Committable (outpoint : Sil.Outpoint) (outputs : List (UInt32 × TransactionOutput)) :
    Prop where
  transactionId : outpoint.transactionId.length = 32
  few : outputs.length < 256 ^ 8
  unbound : ∀ output ∈ outputs, Unbound output

theorem genesisPreimage_inj {outpoint outpoint' : Sil.Outpoint}
    {outputs outputs' : List (UInt32 × TransactionOutput)} (h : Committable outpoint outputs)
    (h' : Committable outpoint' outputs')
    (heq : genesisPreimage outpoint outputs = genesisPreimage outpoint' outputs') :
    outpoint = outpoint' ∧ outputs = outputs' := by
  unfold genesisPreimage at heq
  rw [List.append_assoc, List.append_assoc] at heq
  obtain ⟨hid, hrest⟩ := List.append_inj heq (h.transactionId.trans h'.transactionId.symm)
  obtain ⟨hindex, hcounted⟩ := delimited_littleEndian 4 _ outpoint.index.toNat_lt _
    outpoint'.index.toNat_lt _ _ hrest
  have houtputs := (delimited_counted delimited_outputPreimage 8).injOn ⟨h.few, h.unbound⟩
    ⟨h'.few, h'.unbound⟩ hcounted
  refine ⟨?_, houtputs⟩
  obtain ⟨id, index⟩ := outpoint
  obtain ⟨id', index'⟩ := outpoint'
  obtain rfl : id = id' := hid
  obtain rfl := UInt32.toNat_inj.mp hindex
  rfl

/-! ## the rules of the chain -/

/-- What is known of a transaction that was accepted.  `hashed` are the preimages of the ids of the
chain. -/
structure Consensus (tx : Sil.Transaction) (hash : Bytes → Bytes) (hashed : Set Bytes) : Prop where
  /-- an outpoint is spent once -/
  distinct : (tx.inputs.map (·.outpoint)).Nodup
  transactionIds : ∀ input ∈ tx.inputs, input.outpoint.transactionId.length = 32
  few : tx.outputs.length ≤ 2 ^ 32
  amounts : ∀ output ∈ tx.outputs, output.value.toNat < 2 ^ 63
  scripts : ∀ output ∈ tx.outputs, output.script.length < 256 ^ 8
  /-- a new id is the hash of its whole group -/
  created : ∀ output ∈ tx.outputs, ∀ index id, output.covenant = some ⟨index, id⟩ →
    tx.inputCovenantId index ≠ some id → ∃ input, tx.inputs[index]? = some input ∧
      genesisPreimage input.outpoint ((createdOutputs tx index id).map preimageItem) ∈ hashed ∧
      hash (genesisPreimage input.outpoint ((createdOutputs tx index id).map preimageItem)) = id
  /-- the id that an input carries is the hash of a group under an outpoint that was spent before -/
  inherited : ∀ input ∈ tx.inputs, ∀ id, input.covenantId = some id → ∃ outpoint outputs,
    Committable outpoint outputs ∧ outpoint ∉ tx.inputs.map (·.outpoint) ∧
      genesisPreimage outpoint outputs ∈ hashed ∧ hash (genesisPreimage outpoint outputs) = id

variable {tx : Sil.Transaction} {hash : Bytes → Bytes} {hashed : Set Bytes} {input : Nat} {id : Bytes}

theorem mem_createdOutputs {item : Sil.TransactionOutput × Nat} :
    item ∈ createdOutputs tx input id ↔ tx.outputs[item.2]? = some item.1 ∧
      item.1.covenant = some ⟨input, id⟩ ∧ tx.inputCovenantId input ≠ some id := by
  unfold createdOutputs
  rw [List.mem_filter, decide_eq_true_eq, List.mem_zipIdx_iff_getElem?]

namespace Consensus

theorem committable (h : Consensus tx hash hashed) {spent : Sil.TransactionInput}
    (hinput : tx.inputs[input]? = some spent) :
    Committable spent.outpoint ((createdOutputs tx input id).map preimageItem) where
  transactionId := h.transactionIds spent (List.mem_of_getElem? hinput)
  few := by
    have hle := List.length_filter_le (fun item : Sil.TransactionOutput × Nat =>
      decide (item.1.covenant = some ⟨input, id⟩ ∧ tx.inputCovenantId input ≠ some id))
      tx.outputs.zipIdx
    rw [List.length_zipIdx] at hle
    rw [List.length_map]
    have hfew := h.few
    unfold createdOutputs
    omega
  unbound output houtput := by
    obtain ⟨item, hitem, rfl⟩ := List.mem_map.mp houtput
    obtain ⟨hindex, -⟩ := mem_createdOutputs.mp hitem
    exact ⟨rfl, h.scripts _ (List.mem_of_getElem? hindex)⟩

theorem input_unique (h : Consensus tx hash hashed) {other : Nat}
    {spent spent' : Sil.TransactionInput} (hinput : tx.inputs[input]? = some spent)
    (hother : tx.inputs[other]? = some spent') (heq : spent.outpoint = spent'.outpoint) :
    input = other := by
  have hmap : (tx.inputs.map (·.outpoint))[input]? = (tx.inputs.map (·.outpoint))[other]? := by
    rw [List.getElem?_map, List.getElem?_map, hinput, hother, Option.map_some, Option.map_some, heq]
  refine (List.getElem?_inj ?_ h.distinct).mp hmap
  rw [List.length_map]
  exact (List.getElem?_eq_some_iff.mp hinput).1

/-- **The id of an output tells the group: an output with the id of a preimage is in the group that
the preimage describes.** -/
theorem created_of_id (h : Consensus tx hash hashed) (hcollision : hashed.InjOn hash)
    {spent : Sil.TransactionInput} (hinput : tx.inputs[input]? = some spent)
    {outputs : List (UInt32 × TransactionOutput)} (houtputs : Committable spent.outpoint outputs)
    (hhashed : genesisPreimage spent.outpoint outputs ∈ hashed)
    {output : Sil.TransactionOutput} (hmem : output ∈ tx.outputs)
    {binding : Sil.CovenantBinding} (hbinding : output.covenant = some binding)
    (hid : hash (genesisPreimage spent.outpoint outputs) = binding.covenantId) :
    binding.authorizingInput = input ∧ tx.inputCovenantId input ≠ some binding.covenantId ∧
      outputs = (createdOutputs tx input binding.covenantId).map preimageItem := by
  obtain ⟨authorizing, id⟩ := binding
  -- the id is new: an old one was hashed from an outpoint that is not spent here
  have hnew : tx.inputCovenantId authorizing ≠ some id := by
    intro hold
    obtain ⟨carrier, hcarrier, hcarries⟩ := Option.bind_eq_some_iff.mp hold
    obtain ⟨outpoint, old, hcommittable, hunspent, holdHashed, holdId⟩ :=
      h.inherited carrier (List.mem_of_getElem? hcarrier) id hcarries
    have hsame := hcollision hhashed holdHashed (hid.trans holdId.symm)
    refine hunspent ?_
    rw [← (genesisPreimage_inj houtputs hcommittable hsame).1]
    exact List.mem_map_of_mem (List.mem_of_getElem? hinput)
  obtain ⟨spent', hinput', hhashed', hid'⟩ := h.created output hmem authorizing id hbinding hnew
  have hsame := hcollision hhashed hhashed' (hid.trans hid'.symm)
  obtain ⟨houtpoint, hgroup⟩ := genesisPreimage_inj houtputs (h.committable hinput') hsame
  obtain rfl := h.input_unique hinput hinput' houtpoint
  exact ⟨rfl, hnew, hgroup⟩

end Consensus

end Argent.Genesis
