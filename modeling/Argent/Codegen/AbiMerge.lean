import Argent.Artifacts.Abi
import Argent.Base.MapMerge
import Argent.Codegen.StateTypes

/-!
# The ABI of an app

`codegen/abi.rs`: the ABI artifacts of the compiled actors are merged into the one of the app.

* `constructorArgsForActor`      the placeholders that an actor is compiled with;
* `canonicalizeSilAbiStructStateRefs`      structs without references to `State`;
* `incomingSources`      what the structs of an actor stand for;
* `mergeSilAbiArtifacts`      one artifact more;
* `silAbiArtifact`      the artifacts of all actors.
-/

set_option linter.unusedSectionVars false

namespace Argent.Codegen.AbiMerge
open Argent.Artifacts Argent.Model Argent.Fallible
open Argent.Sil (Bytes)

/-! ## the compiler of Silverscript -/

/-- a constructor argument -/
inductive PlaceholderExpr where
  | int (value : Int)
  | temporal (value : Int)
  | bool (value : Bool)
  | byte (value : UInt8)
  | string (value : String)
  | bytes (value : Bytes)
  | array (items : List PlaceholderExpr)
deriving Repr

/-- an ABI artifact with the version of the compiler that made it -/
structure VersionedAbi extends SilAbiArtifact where
  compilerVersion : String

/-- what is used of the `silverscript` crates -/
structure SilCompiler where
  Contract : Type
  Compiled : Type
  contractName : Contract → String
  /-- `Expr::try_from` of a vector -/
  arrayExpr : List PlaceholderExpr → Except String PlaceholderExpr
  /-- `compile_contract_ast` -/
  compileContractAst : Contract → List PlaceholderExpr → Except String Compiled
  /-- `sil_abi_artifact_from_compiled` -/
  silAbiArtifactFromCompiled : Compiled → List PlaceholderExpr → Except String VersionedAbi
  silAbiSchemaVersion : Nat
  compilerVersion : String

/-! ## apps -/

structure ActorDecl where
  name : String
  state : String
deriving DecidableEq, Repr

/-- The state lowering of one contract: the entries of its tables, in the order of their keys. -/
structure LoweringTables where
  active : PhysicalStateLayout
  sourceRepresentations : List (SourceStateId × SourceRepresentationPlan)
  targetPhysical : List (PhysicalTargetId × TargetPhysicalPlan)
  outputPhysicalTypes : List (PhysicalTargetId × OutputPhysicalTypePlan)
deriving Repr

namespace LoweringTables
variable (tables : LoweringTables)

def sourceRepresentation (source : SourceStateId) : Option SourceRepresentationPlan :=
  (tables.sourceRepresentations.find? fun entry => decide (entry.1 = source)).map Prod.snd

def target (id : PhysicalTargetId) : Option TargetPhysicalPlan :=
  (tables.targetPhysical.find? fun entry => decide (entry.1 = id)).map Prod.snd

end LoweringTables

/-- what the merge reads of an app and its compiled actors -/
structure AbiModel where
  compiler : SilCompiler
  states : StateModel
  /-- the contracts of `CompiledActors` -/
  contracts : DeclId → Option compiler.Contract
  actorByDecl : DeclId → Except String ActorDecl
  /-- the state that an actor owns -/
  actorState : DeclId → Except String SourceStateId
  /-- `validate_reserved_identifiers` -/
  asStr_ne_state : ∀ id source, actorState id = .ok source → states.asStr source ≠ "State"
  stateLowering : DeclId → Except String LoweringTables

/-! ## constructor arguments -/

def zeroByteArrayExpr (len : Nat) : PlaceholderExpr := .bytes (List.replicate len 0)

def placeholderExprForName : String → Except String PlaceholderExpr
  | "int" => .ok (.int 0)
  | "temporal" => .ok (.temporal 0)
  | "bool" => .ok (.bool false)
  | "byte" => .ok (.byte 0)
  | "string" => .ok (.string "")
  | "pubkey" => .ok (zeroByteArrayExpr 32)
  | "cov_id" => .ok (zeroByteArrayExpr 32)
  | "sig" => .ok (zeroByteArrayExpr 65)
  | "datasig" => .ok (zeroByteArrayExpr 64)
  | name => .error s!"unsupported constructor placeholder type `{name}`"

def placeholderExprForType (compiler : SilCompiler) (ty : TypeRef) : Except String PlaceholderExpr :=
  if ty.isActorType then .ok (zeroByteArrayExpr 32)
  else
    match ty.array with
    | some (.fixed len) =>
      if ty.name = "byte" then .ok (zeroByteArrayExpr len)
      else do
        let values ← (List.replicate len ty.name).mapM placeholderExprForName
        compiler.arrayExpr values
    | some .dynamic => .error "dynamic arrays are not supported in actor state"
    | none => placeholderExprForName ty.name

def isGenerated : PhysicalFieldId → Bool
  | .generated _ => true
  | .storage _ => false

def constructorArgsForActor (model : AbiModel) (id : DeclId) (actor : ActorDecl) :
    Except String (List PlaceholderExpr) := do
  let source ← model.actorState id
  let state ← model.states.storageStateBySource source
  let lowering ← model.stateLowering id
  let generatedFields := lowering.active.fields.filter fun field => isGenerated field.id
  let generated ← generatedFields.mapM fun field =>
    (placeholderExprForType model.compiler field.ty).mapError fun err =>
      s!"cannot build placeholder constructor argument for actor `{actor.name}` generated field " ++
        s!"`{field.silName}`: {err}"
  let stored ← state.fields.mapM fun field =>
    (placeholderExprForType model.compiler field.ty).mapError fun err =>
      s!"cannot build placeholder constructor argument for actor `{actor.name}` field " ++
        s!"`{field.name}`: {err}"
  return generated ++ stored

/-- the contract of an actor, compiled -/
def compileBase (model : AbiModel) (id : DeclId) (args : List PlaceholderExpr) :
    Except String model.compiler.Compiled := do
  let contract ← okOr (model.contracts id)
    s!"missing generated Silverscript for actor identity `{id}`"
  (model.compiler.compileContractAst contract args).mapError fun err =>
    s!"generated Silverscript for actor `{model.compiler.contractName contract}` failed to " ++
      s!"compile: {err}"

/-- the ABI artifact of one actor, as the compiler makes it -/
def directAbi (model : AbiModel) (id : DeclId) (actor : ActorDecl) : Except String VersionedAbi := do
  let args ← constructorArgsForActor model id actor
  let compiled ← compileBase model id args
  let artifact ← (model.compiler.silAbiArtifactFromCompiled compiled args).mapError fun err =>
    s!"cannot build Sil ABI for actor `{actor.name}`: {err}"
  rejectIf (artifact.contract actor.name).isNone
    s!"generated Sil ABI has no contract for actor `{actor.name}`"
  return artifact

/-! ## references to `State` -/

def typeReferencesState : TypeArtifact → Bool
  | .struct name => decide (name = "State")
  | .fixedArray item _ | .dynamicArray item => typeReferencesState item
  | .int | .temporal | .bool | .byte | .bytes | .text | .pubkey | .sig | .datasig | .fixedBytes _ =>
    false

def replaceStateTypeRef (authoredState : String) : TypeArtifact → TypeArtifact
  | .struct name => .struct (if name = "State" then authoredState else name)
  | .fixedArray item len => .fixedArray (replaceStateTypeRef authoredState item) len
  | .dynamicArray item => .dynamicArray (replaceStateTypeRef authoredState item)
  | .int => .int
  | .temporal => .temporal
  | .bool => .bool
  | .byte => .byte
  | .bytes => .bytes
  | .text => .text
  | .pubkey => .pubkey
  | .sig => .sig
  | .datasig => .datasig
  | .fixedBytes len => .fixedBytes len

def structReferencesState (struct : StructArtifact) : Bool :=
  struct.fields.any fun field => typeReferencesState field.ty

/-- the loop body over the fields of a struct -/
def replaceStateRefs (authoredState : String) (struct : StructArtifact) : StructArtifact :=
  ⟨struct.fields.map fun field => ⟨field.name, replaceStateTypeRef authoredState field.ty⟩⟩

/-- the fields of the runtime state of a contract, as a struct -/
def authoredState (contract : SilContractArtifact) : StructArtifact :=
  ⟨contract.runtimeState.fields.map fun field => ⟨field.name, field.ty⟩⟩

def canonicalizeSilAbiStructStateRefs (model : AbiModel) (id : DeclId) (actor : ActorDecl)
    (artifact : VersionedAbi) : Except String VersionedAbi :=
  if artifact.structs.entries.any fun entry => structReferencesState entry.2 then do
    let source ← model.actorState id
    let lowering ← model.stateLowering id
    let representation ← okOr (lowering.sourceRepresentation source)
      s!"actor `{actor.name}` has no authored state representation"
    rejectIf (representation.silType ≠ .state)
      (s!"generated Sil ABI for actor `{actor.name}` contains a global struct that references " ++
        s!"physical `State`, but `{actor.state}` is not equivalent to `State`")
    let contract ← okOr (artifact.contract actor.name)
      s!"generated Sil ABI has no contract for actor `{actor.name}`"
    let canonicalName := model.states.asStr source
    rejectIf ((artifact.structs.get canonicalName).any fun existing =>
        decide (existing ≠ authoredState contract))
      (s!"cannot canonicalize Sil `State` as authored state `{canonicalName}` for actor " ++
        s!"`{actor.name}`: their fields differ")
    return { artifact with
      structs := (artifact.structs.insert canonicalName (authoredState contract)).mapValues
        (replaceStateRefs canonicalName) }
  else return artifact

/-! ## what structs stand for -/

inductive AbiStructIdentity where
  | source (source : SourceStateId)
  | physical (source : SourceStateId) (fields : List PhysicalFieldId)
deriving DecidableEq, Repr

/-- the name of the struct that represents a source state -/
def sourceStructName (model : AbiModel) (source : SourceStateId) : SilStateType → Except String String
  | .state => .ok (model.states.asStr source)
  | .source planned =>
    if planned = source then renderSilStateType model.states (.source planned)
    else .error s!"state `{model.states.asStr source}` has an invalid source representation"
  | .storagePhysical _ | .targetPhysical _ =>
    .error s!"state `{model.states.asStr source}` has an invalid source representation"

/-- the physical types of outputs and targets -/
def selectedTypes (lowering : LoweringTables) :
    List (Except String (SilStateType × TargetPhysicalPlan)) :=
  (lowering.outputPhysicalTypes.map fun output =>
    okOr ((lowering.target output.2.canonicalTarget).map fun physical =>
      (output.2.silType, physical)) "output ABI type has no canonical physical target") ++
  lowering.targetPhysical.map fun physical => .ok (physical.2.silType, physical.2)

/-- the name and the identity of a selected type; types of other kinds have none -/
def physicalIdentity (model : AbiModel) (silType : SilStateType) (physical : TargetPhysicalPlan) :
    Option (String × AbiStructIdentity) :=
  match silType with
  | .state | .source _ => none
  | .storagePhysical _ | .targetPhysical _ =>
    match renderSilStateType model.states silType with
    | .error _ => none
    | .ok name => some (name, .physical physical.source (physical.physical.fields.map (·.id)))

/-- what a struct of the artifact stands for -/
def recordIdentity (artifact : VersionedAbi) (sources : BTreeMap String AbiStructIdentity)
    (named : String × AbiStructIdentity) : Except String (BTreeMap String AbiStructIdentity) :=
  if (artifact.structs.get named.1).isSome then do
    rejectIf ((sources.get named.1).any fun existing => decide (existing ≠ named.2))
      s!"Sil struct `{named.1}` has conflicting semantic identities"
    return sources.insert named.1 named.2
  else return sources

def recordSource (model : AbiModel) (artifact : VersionedAbi)
    (sources : BTreeMap String AbiStructIdentity)
    (entry : SourceStateId × SourceRepresentationPlan) :
    Except String (BTreeMap String AbiStructIdentity) := do
  let name ← sourceStructName model entry.1 entry.2.silType
  recordIdentity artifact sources (name, .source entry.1)

def recordSelected (model : AbiModel) (artifact : VersionedAbi)
    (sources : BTreeMap String AbiStructIdentity)
    (selected : Except String (SilStateType × TargetPhysicalPlan)) :
    Except String (BTreeMap String AbiStructIdentity) := do
  let (silType, physical) ← selected
  match physicalIdentity model silType physical with
  | none => return sources
  | some named => recordIdentity artifact sources named

def incomingSources (model : AbiModel) (lowering : LoweringTables) (artifact : VersionedAbi) :
    Except String (BTreeMap String AbiStructIdentity) := do
  let sources ← lowering.sourceRepresentations.foldlM (recordSource model artifact) ∅
  (selectedTypes lowering).foldlM (recordSelected model artifact) sources

/-! ## merging -/

/-- an artifact with what its structs stand for -/
structure SourcedAbi where
  artifact : VersionedAbi
  sources : BTreeMap String AbiStructIdentity

def mergeStruct (leftSources rightSources : BTreeMap String AbiStructIdentity)
    (structs : BTreeMap String StructArtifact) (entry : String × StructArtifact) :
    Except String (BTreeMap String StructArtifact) := do
  rejectIf (rightSources.get entry.1).isNone s!"Sil struct `{entry.1}` has no semantic identity"
  match structs.get entry.1 with
  | some existing => do
    rejectIf (existing ≠ entry.2) s!"cannot merge conflicting Sil struct `{entry.1}`"
    rejectIf (leftSources.get entry.1 ≠ rightSources.get entry.1)
      s!"cannot merge Sil struct `{entry.1}` from distinct semantic identities"
    return structs
  | none => return structs.insert entry.1 entry.2

def mergeContract (contracts : BTreeMap String SilContractArtifact)
    (entry : String × SilContractArtifact) : Except String (BTreeMap String SilContractArtifact) := do
  rejectIf (contracts.get entry.1).isSome s!"cannot merge duplicate Sil contract `{entry.1}`"
  return contracts.insert entry.1 entry.2

def mergeSilAbiArtifacts (left right : SourcedAbi) : Except String SourcedAbi := do
  rejectIf (left.artifact.schemaVersion ≠ right.artifact.schemaVersion)
    (s!"cannot merge Sil ABI schema versions {left.artifact.schemaVersion} and " ++
      s!"{right.artifact.schemaVersion}")
  rejectIf (left.artifact.compilerVersion ≠ right.artifact.compilerVersion)
    (s!"cannot merge Sil ABI compiler versions `{left.artifact.compilerVersion}` and " ++
      s!"`{right.artifact.compilerVersion}`")
  let structs ← right.artifact.structs.entries.foldlM (mergeStruct left.sources right.sources)
    left.artifact.structs
  let contracts ← right.artifact.contracts.entries.foldlM mergeContract left.artifact.contracts
  return ⟨{ left.artifact with structs := structs, contracts := contracts },
    left.sources.extend right.sources⟩

/-! ## the artifacts of the actors -/

/-- the artifact of one actor, as it is merged -/
def actorAbi (model : AbiModel) (id : DeclId) : Except String SourcedAbi := do
  let actor ← model.actorByDecl id
  let direct ← directAbi model id actor
  let artifact ← canonicalizeSilAbiStructStateRefs model id actor direct
  let lowering ← model.stateLowering id
  let sources ← incomingSources model lowering artifact
  return ⟨artifact, sources⟩

def emptyAbi (model : AbiModel) : SourcedAbi where
  artifact := {
    schemaVersion := model.compiler.silAbiSchemaVersion
    compilerVersion := model.compiler.compilerVersion
    structs := ∅
    contracts := ∅ }
  sources := ∅

/-- the ABI of the app with the actors `appActors`, in their order -/
def silAbiArtifact (model : AbiModel) (appActors : List DeclId) : Except String VersionedAbi := do
  let combined ← appActors.foldlM (fun combined id => do
    let incoming ← actorAbi model id
    mergeSilAbiArtifacts combined incoming) (emptyAbi model)
  return combined.artifact

end Argent.Codegen.AbiMerge
