import Argent.Runtime.Spawns

/-!
# Hidden arguments

The arguments that the compiler adds to an entry, resolved from the artifact of an input, from the
covenants that it observes and from the outputs that its spawns were matched to.

* `TxBuilder.hiddenArg`      one argument, by its purpose;
* `TxBuilder.resolveContextHiddenArgs`      the arguments of all inputs.
-/

set_option linter.unusedSectionVars false

namespace Argent.Runtime
open Argent.Fallible Argent.Sil Argent.Artifacts

/-- `n as i64` -/
def asI64 (n : Nat) : Int := Int.bmod n (2 ^ 64)

theorem asI64_of_lt {n : Nat} (h : n < 2 ^ 63) : asI64 n = n := by
  unfold asI64
  exact Int.bmod_eq_of_le (by omega) (by omega)

/-! ## subjects -/

def unexpectedHiddenSubject {α : Type} (hidden : HiddenParamArtifact) (expected : String) :
    BuilderResult α :=
  fail (.unexpectedHiddenSubject hidden.name expected)

def hiddenActorSubject (hidden : HiddenParamArtifact) : BuilderResult String :=
  match hidden.subject with
  | .actor actor => pure actor
  | .observedActor _ _ _ actor => pure actor
  | .spawnActor _ _ actor => pure actor
  | _ => unexpectedHiddenSubject hidden "actor"

def hiddenFamilySubject (hidden : HiddenParamArtifact) : BuilderResult String :=
  match hidden.subject with
  | .routeFamily familyId => pure familyId
  | _ => unexpectedHiddenSubject hidden "route family"

def hiddenRouteProof (hidden : HiddenParamArtifact) : BuilderResult String :=
  okOr hidden.routeProofId (.error (.missingHiddenRouteProof hidden.name))

/-! ## route proofs -/

def routeLeafLabel : RouteTemplateLeafArtifact → String
  | .template actor _ => actor
  | .routeFamily familyId _ => familyId

def routeTemplateProofInArtifact (artifact : Artifact) (routeProofId : String) :
    BuilderResult RouteTemplateProofArtifact :=
  okOr (artifact.argent.templatePlan.routeProofs.find? fun proof => proof.id == routeProofId)
    (.error (.unknownRouteProof routeProofId))

def isTemplateOf (actor : String) : RouteTemplateLeafArtifact → Bool
  | .template leafActor _ => leafActor == actor
  | .routeFamily _ _ => false

section
variable (crates : RuntimeCrates)

/-- the sibling hashes of a leaf, one after the other -/
def proofBytes (leaf : RouteTemplateProofLeafArtifact) : BuilderResult Bytes := do
  let hashes ← leaf.proof.mapM fun step => orFail BuilderError.codec (crates.decodeHex step.hashHex)
  pure hashes.flatten

def routeTemplateProofBytes (artifact : Artifact) (routeProofId : String)
    (wantedLeaf : RouteTemplateLeafArtifact) : BuilderResult Bytes := do
  let proofReceipt ← routeTemplateProofInArtifact artifact routeProofId
  let leaf ← okOr (proofReceipt.leaves.find? fun leaf => leaf.leaf = wantedLeaf)
    (.error (.missingRouteProofLeaf routeProofId (routeLeafLabel wantedLeaf)))
  proofBytes crates leaf

def routeTemplateProofBytesForActor (artifact : Artifact) (routeProofId actor : String) :
    BuilderResult Bytes := do
  let proofReceipt ← routeTemplateProofInArtifact artifact routeProofId
  let leaf ← okOr (proofReceipt.leaves.find? fun leaf => isTemplateOf actor leaf.leaf)
    (.error (.missingRouteProofLeaf routeProofId actor))
  proofBytes crates leaf

/-! ## states -/

def stateSatisfies (artifact : Artifact) (foundState expectedState : String) : Bool :=
  foundState == expectedState ||
    artifact.argent.stateExpansions.any fun expansion =>
      expansion.state == foundState && expansion.base == expectedState

def stateExpansionPreimageArg (artifact : Artifact) (contractName : String)
    (contract : SilContractArtifact) (hidden : HiddenParamArtifact)
    (sourceState : BTreeMap String ArtifactValue) : BuilderResult ArtifactValue :=
  match hidden.subject with
  | .stateExpansion state field memoryState => do
    let actorRef ← actorRefInArtifact artifact contractName
    rejectIf (state ≠ actorRef.actor.state)
      (.error (.unexpectedHiddenSubject hidden.name "current contract state expansion"))
    let (payload, _) ← stateExpansionPreimagePayload crates artifact contractName contract field
      memoryState sourceState
    pure (.bytes payload)
  | _ => unexpectedHiddenSubject hidden "state expansion"

end

/-! ## spawned outputs -/

/-- the index of the transaction output that stands at a spawn position -/
def spawnOutputIndexArg (entry : EntryArtifact) (hidden : HiddenParamArtifact)
    (contexts : HiddenArgContexts) : BuilderResult ArtifactValue :=
  match hidden.subject with
  | .spawnActor spawn handle _ => do
    let context ← okOr (contexts.spawnedAt spawn handle)
      (.error (missingSpawnOutput entry spawn handle))
    pure (.int (asI64 context.outputIndex))
  | _ => unexpectedHiddenSubject hidden "spawn actor"

namespace TxBuilder
variable {crates : RuntimeCrates} (builder : TxBuilder crates)

def observedOutputFieldArg (hidden : HiddenParamArtifact) (contexts : HiddenArgContexts) :
    BuilderResult ArtifactValue :=
  match hidden.subject with
  | .observedOutputField observe handle state field => do
    let context ← okOr (contexts.observedAt observe) (.error (.missingObservedCovenant observe))
    let output ← okOr (context.outputs.get handle)
      (.error (.missingObservedActor observe .output handle))
    let contractRef ← builder.bundle.contractRefInApp context.app output.actor
    let actorRef ← actorRefInArtifact contractRef.artifact contractRef.name
    rejectIf (stateSatisfies contractRef.artifact actorRef.actor.state state = false)
      (.error (.observedStateLayoutMismatch observe .output handle output.actor state))
    let values ← runtimeStateValues crates contractRef.artifact contractRef.name
      contractRef.contract output.state
    okOr (values.get field) (.error (.codec (.missingField field)))
  | _ => unexpectedHiddenSubject hidden "observed output field"

/-- one compiler-generated argument -/
def hiddenArg (contractRef : ContractRef) (entry : EntryArtifact)
    (inputSourceState : BTreeMap String ArtifactValue) (templateSelectors : BTreeMap String String)
    (contexts : HiddenArgContexts) (hidden : HiddenParamArtifact) : BuilderResult ArtifactValue :=
  let artifact := contractRef.artifact
  let template := builder.bundle.hiddenTemplate artifact hidden entry templateSelectors contexts
  match hidden.purpose with
  | .spawnOutputIndex => spawnOutputIndexArg entry hidden contexts
  | .templatePrefixBytes => do
    let template ← template
    let bytes ← template.prefixBytes crates.toCrates
    pure (.bytes bytes)
  | .templateSuffixBytes => do
    let template ← template
    let bytes ← template.suffixBytes crates.toCrates
    pure (.bytes bytes)
  | .templatePrefixLen => do
    let template ← template
    pure (.int (asI64 template.prefixLen))
  | .templateSuffixLen => do
    let template ← template
    let length ← template.suffixLen crates.toCrates
    pure (.int (asI64 length))
  | .templateHash => do
    let template ← template
    pure (.bytes template.hashBytes)
  | .routeTemplateLeaf => do
    let actor ← hiddenActorSubject hidden
    let leafRef ← contractRefInArtifact artifact actor
    pure (.bytes leafRef.contract.compiled.templateHash.bytes)
  | .routeTemplateProof => do
    let actor ← hiddenActorSubject hidden
    let routeProofId ← hiddenRouteProof hidden
    let proof ← routeTemplateProofBytesForActor crates artifact routeProofId actor
    pure (.bytes proof)
  | .routeFamilyTable => do
    let familyId ← hiddenFamilySubject hidden
    let table ← routeFamilyTableBytesInArtifact artifact familyId
    pure (.bytes table)
  | .routeFamilyProof => do
    let familyId ← hiddenFamilySubject hidden
    let routeProofId ← hiddenRouteProof hidden
    let proof ← routeTemplateProofBytes crates artifact routeProofId
      (.routeFamily familyId routeProofId)
    pure (.bytes proof)
  | .stateExpansionPreimage => stateExpansionPreimageArg crates artifact contractRef.name
      contractRef.contract hidden inputSourceState
  | .observedOutputFieldValue => builder.observedOutputFieldArg hidden contexts

/-- the arguments of an entry, in the order of its hidden parameters -/
def resolveHiddenArgsInArtifact (contractRef : ContractRef) (entry : EntryArtifact)
    (inputSourceState : BTreeMap String ArtifactValue) (templateSelectors : BTreeMap String String)
    (contexts : HiddenArgContexts) : BuilderResult (List ArtifactValue) :=
  entry.hiddenParams.mapM
    (builder.hiddenArg contractRef entry inputSourceState templateSelectors contexts)

def resolveInputHiddenArgs (input : ResolveInput) : BuilderResult ResolveInput :=
  match input with
  | .ordinary input => pure (.ordinary input)
  | .actor input => do
    let args ← expect input.args "argument resolution precedes hidden-argument resolution"
    let observations ← expect input.observations
      "observation resolution precedes hidden-argument resolution"
    let spawnedActors ← expect input.spawnedActors
      "spawn resolution precedes hidden-argument resolution"
    let hiddenArgs ← builder.resolveHiddenArgsInArtifact input.contractRef input.artifactEntry
      input.source.state args.templateSelectors ⟨some observations, some spawnedActors⟩
    pure (.actor { input with hiddenArgs := some hiddenArgs })

def resolveContextHiddenArgs (context : ResolveContext) : BuilderResult ResolveContext := do
  let inputs ← context.inputs.mapM builder.resolveInputHiddenArgs
  pure { context with inputs := inputs }

end TxBuilder

end Argent.Runtime
