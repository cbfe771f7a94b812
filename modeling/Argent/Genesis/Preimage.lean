import Argent.Base.Fallible
import Argent.Runtime.States

/-!
# Covenant-id preimages

The lowest layer of genesis proofs: the outpoint and the outputs that a covenant id is hashed from.

* `checkOutputOrder`      outputs exist and their indices increase;
* `ConsensusGenesisProof.compose`      the proof that claims the id of its preimage;
* `ConsensusGenesisProof.verify_iff`      **a proof verifies against the id that its preimage has,
                                          and against no other**.
-/

set_option linter.unusedSectionVars false

namespace Argent.Genesis
open Argent.Fallible Argent.Artifacts Argent.Runtime

/-- an output of a genesis group with its index in the launch transaction -/
structure IndexedGenesisOutput where
  index : UInt32
  value : UInt64
  scriptPublicKey : ScriptPublicKey
deriving DecidableEq

def IndexedGenesisOutput.transactionOutput (output : IndexedGenesisOutput) : TransactionOutput :=
  ⟨output.value, output.scriptPublicKey, none⟩

structure ConsensusGenesisProof where
  authorizingOutpoint : TransactionOutpoint
  claimedCovenantId : Digest
  outputs : List IndexedGenesisOutput
deriving DecidableEq

inductive GenesisProofError where
  | emptyOutputs
  | outputIndicesNotStrictlyIncreasing (previous current : UInt32)
  | claimedCovenantIdMismatch (claimed computed : Digest)
  | expectedCovenantIdMismatch (expected computed : Digest)
deriving DecidableEq

/-! ## the order of the outputs -/

def checkPairs : List IndexedGenesisOutput → Except GenesisProofError PUnit
  | previous :: current :: outputs => do
    rejectIf (current.index ≤ previous.index)
      (.outputIndicesNotStrictlyIncreasing previous.index current.index)
    checkPairs (current :: outputs)
  | _ => pure ⟨⟩

def checkOutputOrder (outputs : List IndexedGenesisOutput) : Except GenesisProofError PUnit := do
  rejectIf (outputs = []) .emptyOutputs
  checkPairs outputs

def IndexBefore (previous current : IndexedGenesisOutput) : Prop := previous.index < current.index

theorem checkPairs_iff {outputs : List IndexedGenesisOutput} :
    checkPairs outputs = .ok ⟨⟩ ↔ outputs.IsChain IndexBefore := by
  induction outputs using checkPairs.induct with
  | case1 previous current outputs ih =>
    rw [checkPairs, check_eq_ok, rejectIf_eq_ok, ih, List.isChain_cons_cons]
    exact and_congr_left fun _ => UInt32.not_le
  | case2 outputs hshort =>
    match outputs with
    | [] => exact iff_of_true rfl .nil
    | [output] => exact iff_of_true rfl (.singleton output)
    | previous :: current :: outputs => exact absurd rfl (hshort previous current outputs)

theorem checkOutputOrder_iff {outputs : List IndexedGenesisOutput} :
    checkOutputOrder outputs = .ok ⟨⟩ ↔ outputs ≠ [] ∧ outputs.IsChain IndexBefore := by
  unfold checkOutputOrder
  rw [check_eq_ok, rejectIf_eq_ok, checkPairs_iff]

/-! ## the id -/

section
variable (crates : RuntimeCrates)

def computeCovenantId (authorizingOutpoint : TransactionOutpoint)
    (outputs : List IndexedGenesisOutput) : Except GenesisProofError Digest := do
  checkOutputOrder outputs
  pure (crates.covenantId authorizingOutpoint
    (outputs.map fun output => (output.index, output.transactionOutput)))

namespace ConsensusGenesisProof

def compose (authorizingOutpoint : TransactionOutpoint) (outputs : List IndexedGenesisOutput) :
    Except GenesisProofError ConsensusGenesisProof := do
  let claimedCovenantId ← computeCovenantId crates authorizingOutpoint outputs
  pure ⟨authorizingOutpoint, claimedCovenantId, outputs⟩

def checkConsistency (proof : ConsensusGenesisProof) : Except GenesisProofError PUnit := do
  let computed ← computeCovenantId crates proof.authorizingOutpoint proof.outputs
  rejectIf (computed ≠ proof.claimedCovenantId)
    (.claimedCovenantIdMismatch proof.claimedCovenantId computed)

/-- a check against an id from an independent source -/
def verify (proof : ConsensusGenesisProof) (expected : Digest) : Except GenesisProofError PUnit := do
  checkConsistency crates proof
  rejectIf (proof.claimedCovenantId ≠ expected)
    (.expectedCovenantIdMismatch expected proof.claimedCovenantId)

end ConsensusGenesisProof

end

variable {crates : RuntimeCrates}

theorem computeCovenantId_eq_ok {authorizingOutpoint : TransactionOutpoint}
    {outputs : List IndexedGenesisOutput} {covenantId : Digest} :
    computeCovenantId crates authorizingOutpoint outputs = .ok covenantId ↔
      (outputs ≠ [] ∧ outputs.IsChain IndexBefore) ∧
      crates.covenantId authorizingOutpoint
        (outputs.map fun output => (output.index, output.transactionOutput)) = covenantId := by
  unfold computeCovenantId
  rw [check_eq_ok, checkOutputOrder_iff, pure_eq_ok]

theorem ConsensusGenesisProof.verify_iff {proof : ConsensusGenesisProof} {expected : Digest} :
    proof.verify crates expected = .ok ⟨⟩ ↔
      proof.claimedCovenantId = expected ∧
      computeCovenantId crates proof.authorizingOutpoint proof.outputs = .ok expected := by
  unfold verify
  rw [check_eq_ok, rejectIf_eq_ok, not_not]
  unfold checkConsistency
  rw [bind_eq_ok]
  constructor
  · rintro ⟨⟨computed, hcomputed, hclaimed⟩, rfl⟩
    rw [rejectIf_eq_ok, not_not] at hclaimed
    exact ⟨rfl, hclaimed ▸ hcomputed⟩
  · rintro ⟨rfl, hcomputed⟩
    exact ⟨⟨_, hcomputed, rejectIf_eq_ok.mpr (not_not.mpr rfl)⟩, rfl⟩

end Argent.Genesis
