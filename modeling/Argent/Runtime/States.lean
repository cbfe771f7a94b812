import Argent.Runtime.Bundle
import Argent.Runtime.Context

/-!
# Physical states

The state that an author writes and the state that is stored: expanded fields are hashed and
compiler-owned fields are derived from the template plan.

* `runtimeStateValues`      the fields of the physical state;
* `redeemScriptForContract`      the compiled code with these fields written into it.
-/

set_option linter.unusedSectionVars false

namespace Argent.Runtime
open Argent.Fallible Argent.Sil Argent.Artifacts

/-- what the runtime uses of other crates besides what artifacts are checked with -/
structure RuntimeCrates extends Crates where
  /-- `decode_hex` of `silverscript-abi` -/
  decodeHex : String → Except CodecError Bytes
  /-- `encode_struct_payload` of an object of a state -/
  encodeStructPayload : SilAbiArtifact → SilContractArtifact → String →
    List (String × ArtifactValue) → Except CodecError Bytes
  /-- `pay_to_script_hash_script` -/
  payToScriptHash : Bytes → ScriptPublicKey
  /-- `covenant_id` of an outpoint and the outputs of a group with their indices -/
  covenantId : TransactionOutpoint → List (UInt32 × TransactionOutput) → Digest

/-! ## expansions -/

def stateArtifact (artifact : Artifact) (state : String) : BuilderResult ArgentStateArtifact :=
  okOr (artifact.argent.states.find? fun candidate => candidate.name == state)
    (.error (.unknownState artifact.app state))

/-- the state whose object a digest field expands to -/
def stateExpansionMemoryForField (artifact : Artifact) (state field : String) : Option String :=
  ((artifact.argent.stateExpansions.find? fun expansion => expansion.state == state).bind
    fun expansion => expansion.digests.find? fun digest => digest.field == field).map (·.state)

section
variable (crates : RuntimeCrates)

/-- the payload of an expanded field, and the authored state without the field -/
def stateExpansionPreimagePayload (artifact : Artifact) (contractName : String)
    (contract : SilContractArtifact) (digestField memoryState : String)
    (sourceState : BTreeMap String ArtifactValue) :
    BuilderResult (Bytes × BTreeMap String ArtifactValue) := do
  let missing := BuilderError.missingStateExpansionPreimage contractName digestField memoryState
  let memory ← stateArtifact artifact memoryState
  match sourceState.get digestField with
  | some (.object fields) => do
    memory.fields.forM fun field =>
      rejectIf (field.name ∉ fields.map Prod.fst) (.error missing)
    let payload ← orFail BuilderError.codec
      (crates.encodeStructPayload artifact.silAbi contract memoryState fields)
    pure (payload, sourceState.erase digestField)
  | _ => fail missing

/-! ## the fields of a state -/

def runtimeStatePlanMismatch (contractName message : String) : Fault BuilderError :=
  .error (.runtimeStatePlanMismatch contractName message)

/-- the roles of the compiler-owned fields by name -/
def rolesByField (artifact : Artifact) (contractName : String) (contract : SilContractArtifact)
    (actorState : String) : BuilderResult (BTreeMap String RuntimeFieldRolePlanArtifact) :=
  match artifact.argent.templatePlan.runtimeStatePlan contractName with
  | none => pure ∅
  | some runtimePlan => do
    rejectIf (runtimePlan.source ≠ actorState) (runtimeStatePlanMismatch contractName
      ("source `" ++ runtimePlan.source ++ "` does not match actor state `" ++ actorState ++ "`"))
    runtimePlan.fieldRoles.foldlM (fun roleByField fieldRole => do
      rejectIf (fieldRole.name ∉ contract.runtimeState.fields.map (·.name))
        (runtimeStatePlanMismatch contractName ("field role `" ++ fieldRole.name ++
          "` does not match any Sil ABI runtime field"))
      rejectIf (roleByField.contains fieldRole.name = true) (runtimeStatePlanMismatch contractName
        ("field role `" ++ fieldRole.name ++ "` is duplicated"))
      pure (roleByField.insert fieldRole.name fieldRole)) ∅

/-- the value of one field, and what is left of the authored state -/
def runtimeFieldValue (artifact : Artifact) (contractName : String)
    (contract : SilContractArtifact) (actorState : String)
    (roleByField : BTreeMap String RuntimeFieldRolePlanArtifact)
    (sourceState : BTreeMap String ArtifactValue) (field : RuntimeFieldArtifact) :
    BuilderResult (ArtifactValue × BTreeMap String ArtifactValue) :=
  match roleByField.get field.name with
  | none =>
    match stateExpansionMemoryForField artifact actorState field.name with
    | some memoryState => do
      let (payload, rest) ← stateExpansionPreimagePayload crates artifact contractName contract
        field.name memoryState sourceState
      pure (.bytes (crates.blake3 payload).bytes, rest)
    | none => do
      let value ← okOr (sourceState.get field.name) (.error (.codec (.missingField field.name)))
      pure (value, sourceState.erase field.name)
  | some fieldRole => do
    rejectIf (sourceState.contains field.name = true)
      (.error (.hiddenRuntimeFieldProvided contractName field.name))
    let runtimePlan ← expect (artifact.argent.templatePlan.runtimeStatePlan contractName)
      "generated field roles come from a runtime state plan"
    let value ← orFail
      (fun source => .artifactVerification (artifactAppAlias artifact.app) (.templatePlan source))
      (fixedRuntimeContextValue crates.toHashes artifact.argent.templatePlan.lookup runtimePlan
        fieldRole)
    pure (.bytes value, sourceState)

/-- physical fields from authored state: expansions hashed, route commitments derived -/
def runtimeStateValues (artifact : Artifact) (contractName : String)
    (contract : SilContractArtifact) (sourceState : BTreeMap String ArtifactValue) :
    BuilderResult (BTreeMap String ArtifactValue) := do
  let actorRef ← actorRefInArtifact artifact contractName
  let roleByField ← rolesByField artifact contractName contract actorRef.actor.state
  let (values, rest) ← contract.runtimeState.fields.foldlM
    (fun (state : BTreeMap String ArtifactValue × BTreeMap String ArtifactValue) field => do
      let (value, rest) ← runtimeFieldValue crates artifact contractName contract
        actorRef.actor.state roleByField state.2 field
      pure (state.1.insert field.name value, rest)) (∅, sourceState)
  match rest.keys.toList with
  | extra :: _ => fail (.codec (.unknownField extra))
  | [] => pure values

/-! ## scripts -/

def materializeRedeemScript (abi : SilAbiArtifact) (contract : SilContractArtifact)
    (runtimeState : BTreeMap String ArtifactValue) : Except (Fault CodecError) Bytes := do
  let stateScript ← orFail id
    (crates.encodeRuntimeStateScript abi contract.runtimeState runtimeState)
  let (leading, _, trailing) ← expect
    (crates.scriptParts contract.compiled contract.compiled.bytecode)
    "Sil ABI state span was checked before runtime-state materialization"
  pure (leading ++ stateScript ++ trailing)

def redeemScriptForContract (contractRef : ContractRef)
    (sourceState : BTreeMap String ArtifactValue) : BuilderResult Bytes := do
  let state ← runtimeStateValues crates contractRef.artifact contractRef.name contractRef.contract
    sourceState
  mapFault BuilderError.codec
    (materializeRedeemScript crates contractRef.artifact.silAbi contractRef.contract state)

/-- the script of an actor output at a state -/
def actorScript (contractRef : ContractRef) (sourceState : BTreeMap String ArtifactValue) :
    BuilderResult ScriptPublicKey := do
  let redeemScript ← redeemScriptForContract crates contractRef sourceState
  pure (crates.payToScriptHash redeemScript)

end

end Argent.Runtime
