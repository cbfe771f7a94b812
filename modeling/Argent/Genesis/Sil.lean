import Argent.Genesis.Preimage

/-!
# Genesis proofs from physical states

The middle layer of genesis proofs: contracts of independent ABIs with their physical states, from
which the scripts of the preimage are computed again.

* `materializeOutputs`      the outputs of the preimage;
* `SilGenesisProof.compose`      the proof that claims the id of these outputs.
-/

set_option linter.unusedSectionVars false

namespace Argent.Genesis
open Argent.Fallible Argent.Artifacts Argent.Runtime

structure SilGenesisOutput where
  index : UInt32
  value : UInt64
  abiIndex : Nat
  contract : String
  runtimeState : BTreeMap String ArtifactValue

/-- contract states of one genesis group, each of an ABI of the list -/
structure SilGenesisProof where
  abis : List SilAbiArtifact
  authorizingOutpoint : TransactionOutpoint
  claimedCovenantId : Digest
  outputs : List SilGenesisOutput

inductive SilGenesisProofError where
  | invalidAbi (abiIndex : Nat) (source : String)
  | unknownAbi (outputIndex : UInt32) (abiIndex : Nat)
  | unknownContract (outputIndex : UInt32) (abiIndex : Nat) (contract : String)
  | runtimeState (outputIndex : UInt32) (abiIndex : Nat) (contract : String) (source : CodecError)
  | preimage (source : GenesisProofError)

/-- a computation of this layer, which panics with the materialization of a script -/
abbrev SilGenesisResult (α : Type) := Except (Fault SilGenesisProofError) α

section
variable (crates : RuntimeCrates)

def checkAbis (abis : List SilAbiArtifact) : SilGenesisResult PUnit :=
  abis.zipIdx.forM fun item =>
    (orFail (SilGenesisProofError.invalidAbi item.2) (crates.checkSilAbi item.1)).map fun _ => ⟨⟩

def materializeOutput (abis : List SilAbiArtifact) (output : SilGenesisOutput) :
    SilGenesisResult IndexedGenesisOutput := do
  let abi ← okOr abis[output.abiIndex]? (.error (.unknownAbi output.index output.abiIndex))
  let contract ← okOr (abi.contract output.contract)
    (.error (.unknownContract output.index output.abiIndex output.contract))
  let redeemScript ← mapFault
    (SilGenesisProofError.runtimeState output.index output.abiIndex output.contract)
    (materializeRedeemScript crates abi contract output.runtimeState)
  pure ⟨output.index, output.value, crates.payToScriptHash redeemScript⟩

def materializeOutputs (abis : List SilAbiArtifact) (outputs : List SilGenesisOutput) :
    SilGenesisResult (List IndexedGenesisOutput) :=
  outputs.mapM (materializeOutput crates abis)

namespace SilGenesisProof

def compose (abis : List SilAbiArtifact) (authorizingOutpoint : TransactionOutpoint)
    (outputs : List SilGenesisOutput) : SilGenesisResult SilGenesisProof := do
  checkAbis crates abis
  let indexedOutputs ← materializeOutputs crates abis outputs
  let preimage ← orFail SilGenesisProofError.preimage
    (ConsensusGenesisProof.compose crates authorizingOutpoint indexedOutputs)
  pure ⟨abis, authorizingOutpoint, preimage.claimedCovenantId, outputs⟩

def consensusProof (proof : SilGenesisProof) : SilGenesisResult ConsensusGenesisProof := do
  checkAbis crates proof.abis
  let outputs ← materializeOutputs crates proof.abis proof.outputs
  pure ⟨proof.authorizingOutpoint, proof.claimedCovenantId, outputs⟩

def verify (proof : SilGenesisProof) (expected : Digest) : SilGenesisResult PUnit := do
  let preimage ← consensusProof crates proof
  orFail SilGenesisProofError.preimage (preimage.verify crates expected)

end SilGenesisProof

end

variable {crates : RuntimeCrates}

theorem checkAbis_eq_ok {abis : List SilAbiArtifact} :
    checkAbis crates abis = .ok ⟨⟩ ↔ ∀ abi ∈ abis, crates.checkSilAbi abi = .ok () := by
  unfold checkAbis
  rw [forM_eq_ok]
  constructor
  · intro h abi hmem
    obtain ⟨i, hi, rfl⟩ := List.mem_iff_getElem.mp hmem
    have hat := h (abis[i], i) (List.mem_zipIdx_iff_getElem?.mpr (List.getElem?_eq_getElem hi))
    cases hcheck : crates.checkSilAbi abis[i] with
    | error e =>
      rw [hcheck] at hat
      cases hat
    | ok u => rfl
  · rintro h ⟨abi, i⟩ hmem
    rw [h abi (List.mem_of_getElem? (List.mem_zipIdx_iff_getElem?.mp hmem))]
    rfl

theorem SilGenesisProof.compose_eq_ok {abis : List SilAbiArtifact}
    {authorizingOutpoint : TransactionOutpoint} {outputs : List SilGenesisOutput}
    {proof : SilGenesisProof} : compose crates abis authorizingOutpoint outputs = .ok proof ↔
      (∀ abi ∈ abis, crates.checkSilAbi abi = .ok ()) ∧
      ∃ indexedOutputs covenantId, materializeOutputs crates abis outputs = .ok indexedOutputs ∧
        computeCovenantId crates authorizingOutpoint indexedOutputs = .ok covenantId ∧
        proof = ⟨abis, authorizingOutpoint, covenantId, outputs⟩ := by
  unfold compose
  rw [check_eq_ok, checkAbis_eq_ok, bind_eq_ok]
  refine and_congr_right fun _ => exists_congr fun indexedOutputs => ?_
  rw [bind_eq_ok]
  constructor
  · rintro ⟨hmaterialize, preimage, hpreimage, hproof⟩
    obtain ⟨covenantId, hid, hpreimage⟩ := bind_eq_ok.mp (orFail_eq_ok.mp hpreimage)
    obtain rfl := pure_eq_ok.mp hpreimage
    exact ⟨covenantId, hmaterialize, hid, (pure_eq_ok.mp hproof).symm⟩
  · rintro ⟨covenantId, hmaterialize, hid, rfl⟩
    refine ⟨hmaterialize, _, orFail_eq_ok.mpr (bind_eq_ok.mpr ⟨covenantId, hid, rfl⟩), rfl⟩

end Argent.Genesis
