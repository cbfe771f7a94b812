import Argent.Base.Groups
import Argent.Runtime.HiddenTemplates
import Argent.Runtime.States

/-!
# Binding of transaction contexts

Actor paths of a context are resolved against the artifacts of a builder, covenant ids are assigned
to the named subgroups of genesis outputs, and deferred states are evaluated.

* `TxBuilder`      a bundle whose dependencies and interfaces were checked;
* `GenesisGroupName.path_parse`      the text of a subgroup is read back from its name;
* `TxBuilder.bindContext`      the three phases;
* `TxBuilder.unsignedTransaction`      the transaction that a bound context describes.
-/

set_option linter.unusedSectionVars false

namespace Argent.Runtime
open Argent.Fallible Argent.Sil Argent.Artifacts

/-! ## builders -/

section
variable {crates : Crates} (bundle : ArtifactBundle crates)

def validateDependency (artifact : Artifact) (dependency : AppDependencyArtifact) :
    BuilderResult PUnit := do
  let found ← okOr (bundle.apps.get (artifactAppAlias dependency.app))
    (.error (.missingDependencyArtifact artifact.app dependency.app dependency.artifactId))
  rejectIf (found.app ≠ dependency.app ∨ found.id ≠ dependency.artifactId)
    (.error (.dependencyArtifactMismatch artifact.app dependency.app dependency.artifactId
      found.app found.id))

def validateBundleDependencies : BuilderResult PUnit :=
  bundle.apps.entries.forM fun app =>
    app.2.dependencies.forM (validateDependency bundle app.2)

def validateBundleInterfaces : BuilderResult PUnit :=
  bundle.apps.entries.forM fun app =>
    app.2.argent.interfaces.imports.forM fun interface =>
      bundle.validateActorInterface app.2 (artifactAppAlias interface.app) interface.actor

end

/-- a bundle whose dependency identities and imported interfaces were checked -/
structure TxBuilder (crates : RuntimeCrates) where
  bundle : ArtifactBundle crates.toCrates
  dependencies : validateBundleDependencies bundle = .ok ⟨⟩
  interfaces : validateBundleInterfaces bundle = .ok ⟨⟩

def TxBuilder.fromBundle {crates : RuntimeCrates} (bundle : ArtifactBundle crates.toCrates) :
    BuilderResult (TxBuilder crates) :=
  match hdependencies : validateBundleDependencies bundle with
  | .error e => .error e
  | .ok _ =>
    match hinterfaces : validateBundleInterfaces bundle with
    | .error e => .error e
    | .ok _ => .ok ⟨bundle, hdependencies, hinterfaces⟩

/-! ## names of genesis groups -/

inductive GenesisGroupName where
  | launch (name : String)
  | spawn (name : String)
deriving DecidableEq, Repr

namespace GenesisGroupName

def parse (path : String) : BuilderResult GenesisGroupName := do
  let (kind, name) ← okOr (splitOnce path) (.error (.invalidGenesisPath path))
  rejectIf (name = "" ∨ (splitOnce name).isSome = true) (.error (.invalidGenesisPath path))
  if kind = "launch" then pure (.launch name)
  else if kind = "spawn" then pure (.spawn name)
  else fail (.invalidGenesisPath path)

def path : GenesisGroupName → String
  | .launch name => "launch::" ++ name
  | .spawn name => "spawn::" ++ name

end GenesisGroupName

structure GenesisGroupKey where
  authorizingInput : UInt16
  name : GenesisGroupName
deriving DecidableEq, Repr

namespace GenesisGroupKey

def parse (authorizingInput : UInt16) (path : String) : BuilderResult GenesisGroupKey := do
  let name ← GenesisGroupName.parse path
  pure ⟨authorizingInput, name⟩

/-- keys are ordered by their input, launches before spawns, then by the name -/
def rank (key : GenesisGroupKey) : Nat ×ₗ (Nat ×ₗ String) :=
  match key.name with
  | .launch name => toLex (key.authorizingInput.toNat, toLex (0, name))
  | .spawn name => toLex (key.authorizingInput.toNat, toLex (1, name))

theorem rank_injective : Function.Injective rank := by
  rintro ⟨input, name⟩ ⟨input', name'⟩ h
  cases name <;> cases name' <;>
    simp only [rank, EmbeddingLike.apply_eq_iff_eq, Prod.mk.injEq, UInt16.toNat_inj] at h
  · rw [h.1, h.2.2]
  · exact absurd h.2.1 (by decide)
  · exact absurd h.2.1 (by decide)
  · rw [h.1, h.2.2]

instance : LinearOrder GenesisGroupKey := LinearOrder.lift' rank rank_injective

end GenesisGroupKey

/-! ## resolved contexts -/

structure ResolvedEntryArgs where
  values : List ArtifactValue
  templateSelectors : BTreeMap String String

structure ResolveActorInput where
  source : ActorInput
  artifact : Artifact
  actor : ActorArtifact
  contractName : String
  contract : SilContractArtifact
  artifactEntry : EntryArtifact
  silEntry : SilEntryArtifact
  args : Option ResolvedEntryArgs
  observations : Option ResolvedObservations
  spawnedActors : Option ResolvedSpawnActors
  hiddenArgs : Option (List ArtifactValue)

def ResolveActorInput.contractRef (input : ResolveActorInput) : ContractRef :=
  ⟨input.artifact, input.contractName, input.contract⟩

inductive ResolveInput where
  | actor (input : ResolveActorInput)
  | ordinary (input : OrdinaryInput)

structure ResolvedActor where
  contract : ContractRef
  state : BTreeMap String ArtifactValue

inductive ResolvedOutputOwner where
  | actor (actor : ResolvedActor)
  | spk (scriptPublicKey : ScriptPublicKey)

inductive ResolvedOutputBinding where
  | unbound
  | existing (binding : CovenantBinding)
  | genesis (binding : CovenantBinding) (group : GenesisGroupName)
deriving DecidableEq

def ResolvedOutputBinding.covenant : ResolvedOutputBinding → Option CovenantBinding
  | .unbound => none
  | .existing binding => some binding
  | .genesis binding _ => some binding

structure ResolvedOutput where
  owner : ResolvedOutputOwner
  binding : ResolvedOutputBinding
  value : UInt64

structure ResolveContext where
  inputs : List ResolveInput
  outputs : List ResolvedOutput
  lockTime : UInt64
  subnetworkId : Bytes
  gas : UInt64
  payload : Bytes

/-! ## the phases of binding -/

inductive BoundOutputOwner where
  | actor (path : ActorPath) (contract : ContractRef) (state : OutputState)
  | spk (scriptPublicKey : ScriptPublicKey)

structure BoundOutput where
  source : ContextOutput
  owner : BoundOutputOwner

abbrev GenesisGroups := BTreeMap GenesisGroupKey (List Nat)

def deferredPanic : String := "internal error: entered unreachable code: expected by output phase 1"

def missingIdPanic : String := "expected by output phase 2"

/-- a deferred state is refused, since its output would be hashed before it is evaluated -/
def rejectDeferred (outputIndex : Nat) (owner : OutputOwner) : BuilderResult PUnit :=
  match owner with
  | .actor actor state => rejectIf (state.isDeferred = true)
      (.error (.genesisOutputStateCallback outputIndex actor.text))
  | .spk _ => pure ⟨⟩

/-- a spawn group is authorized by an actor input whose entry declares the spawn -/
def checkSpawnAuthorizer (key : GenesisGroupKey) (authorizer : ResolveInput) :
    BuilderResult PUnit :=
  match key.name with
  | .launch _ => pure ⟨⟩
  | .spawn spawn =>
    match authorizer with
    | .ordinary _ => fail (.spawnAuthorizingInputNotActor key.authorizingInput spawn)
    | .actor input => rejectIf (spawn ∉ input.artifactEntry.spawns.map (·.name))
        (.error (.unknownSpawn key.authorizingInput spawn))

/-- the group of an output, once its declaration is validated -/
def outputGroup (inputs : List ResolveInput) (outputIndex : Nat) (output : ContextOutput) :
    BuilderResult (Option GenesisGroupKey) :=
  match output.covenant with
  | .genesis authorizingInput subgroup => do
    rejectDeferred outputIndex output.owner
    let group ← GenesisGroupKey.parse authorizingInput subgroup
    let authorizer ← okOr inputs[authorizingInput.toNat]?
      (.error (.genesisAuthorizingInputOutOfRange authorizingInput inputs.length))
    checkSpawnAuthorizer group authorizer
    pure (some group)
  | .unbound =>
    match output.owner with
    | .actor actor _ => fail (.unboundActorOutput outputIndex actor.text)
    | .spk _ => pure none
  | .existing _ => pure none

def pushGroup (groups : GenesisGroups) (outputIndex : Nat) : Option GenesisGroupKey → GenesisGroups
  | some key => Groups.push key outputIndex groups
  | none => groups

/-- `u32::try_from` -/
def toU32 (index : Nat) : Option UInt32 := if index < 2 ^ 32 then some (UInt32.ofNat index) else none

namespace TxBuilder
variable {crates : RuntimeCrates} (builder : TxBuilder crates)

def bindActor (actor : ActorPath) : BuilderResult ContractRef := do
  let artifact ← builder.bundle.app (actor.app.getD builder.bundle.primaryAlias)
  contractRefInArtifact artifact actor.actor

/-- the physical state of an actor of the primary app -/
def materializeActorState (actorName : String) (sourceState : BTreeMap String ArtifactValue) :
    BuilderResult (BTreeMap String ArtifactValue) := do
  let contractRef ← contractRefInArtifact builder.bundle.primary actorName
  runtimeStateValues crates contractRef.artifact contractRef.name contractRef.contract sourceState

def bindInput (input : ContextInput) : BuilderResult ResolveInput :=
  match input with
  | .ordinary input => pure (.ordinary input)
  | .actor input => do
    let contractRef ← builder.bindActor input.actor
    let actorRef ← actorRefInArtifact contractRef.artifact input.actor.actor
    let artifactEntry ← okOr (actorRef.actor.entries.find? fun entry => entry.name == input.entry.name)
      (.error (.unknownEntry input.actor.actor input.entry.name))
    let silEntry ← okOr (contractRef.contract.entry input.entry.name)
      (.error (.unknownEntry input.actor.text input.entry.name))
    pure (.actor
      { source := input
        artifact := contractRef.artifact
        actor := actorRef.actor
        contractName := contractRef.name
        contract := contractRef.contract
        artifactEntry := artifactEntry
        silEntry := silEntry
        args := none
        observations := none
        spawnedActors := none
        hiddenArgs := none })

def bindOwner (owner : OutputOwner) : BuilderResult BoundOutputOwner :=
  match owner with
  | .actor actor state => do
    let contract ← builder.bindActor actor
    pure (.actor actor contract state)
  | .spk scriptPublicKey => pure (.spk scriptPublicKey)

/-- the first phase: actors are bound, genesis declarations are validated and collected -/
def bindOutput (inputs : List ResolveInput) (state : List BoundOutput × GenesisGroups)
    (item : ContextOutput × Nat) : BuilderResult (List BoundOutput × GenesisGroups) := do
  let (output, outputIndex) := item
  let group ← outputGroup inputs outputIndex output
  let owner ← builder.bindOwner output.owner
  pure (state.1 ++ [⟨output, owner⟩], pushGroup state.2 outputIndex group)

variable (crates)

/-- the script of an output whose state is known -/
def boundScript (owner : BoundOutputOwner) : BuilderResult ScriptPublicKey :=
  match owner with
  | .actor _ contract (.static state) => actorScript crates contract state
  | .actor _ _ (.withContext _) => .error (.panic deferredPanic)
  | .spk scriptPublicKey => pure scriptPublicKey

/-- an output of a group as it is hashed, with its index -/
def genesisOutput (boundOutputs : List BoundOutput) (outputIndex : Nat) :
    BuilderResult (UInt32 × TransactionOutput) := do
  let output ← expect boundOutputs[outputIndex]? "index out of bounds"
  let spk ← boundScript crates output.owner
  let index ← okOr (toU32 outputIndex) (.error (.genesisOutputIndexOverflow outputIndex))
  pure (index, ⟨output.source.value, spk, none⟩)

/-- the second phase: the covenant id of each group -/
def bindGroup (context : TxContext) (boundOutputs : List BoundOutput) (stateContext : StateContext)
    (item : GenesisGroupKey × List Nat) : BuilderResult StateContext := do
  let (key, outputIndices) := item
  let authorizingInput ← okOr context.inputs[key.authorizingInput.toNat]?
    (.error (.genesisAuthorizingInputOutOfRange key.authorizingInput context.inputs.length))
  let genesisOutputs ← outputIndices.mapM (genesisOutput crates boundOutputs)
  let covenantId := crates.covenantId authorizingInput.outpoint genesisOutputs
  pure (stateContext.insertGenesisCovenantId key.authorizingInput key.name.path covenantId)

variable {crates}

def resolveBinding (stateContext : StateContext) (covenant : OutputCovenant) :
    BuilderResult ResolvedOutputBinding :=
  match covenant with
  | .existing binding => pure (.existing binding)
  | .unbound => pure .unbound
  | .genesis authorizingInput subgroup => do
    let group ← GenesisGroupKey.parse authorizingInput subgroup
    let covenantId ← expect (stateContext.genesisCovenantId authorizingInput subgroup)
      missingIdPanic
    pure (.genesis ⟨authorizingInput, covenantId⟩ group.name)

/-- the owner with its state evaluated -/
def resolveOwner (stateContext : StateContext) (outputIndex : Nat) (owner : BoundOutputOwner) :
    BuilderResult ResolvedOutputOwner :=
  match owner with
  | .actor path contract state => do
    let state ← orFail (BuilderError.outputStateCallback outputIndex path.text)
      (state.resolve stateContext)
    pure (.actor ⟨contract, state⟩)
  | .spk scriptPublicKey => pure (.spk scriptPublicKey)

/-- the third phase: bindings are attached, states are evaluated -/
def resolveOutput (stateContext : StateContext) (item : BoundOutput × Nat) :
    BuilderResult ResolvedOutput := do
  let (output, outputIndex) := item
  let binding ← resolveBinding stateContext output.source.covenant
  let owner ← resolveOwner stateContext outputIndex output.owner
  pure ⟨owner, binding, output.source.value⟩

def bindContext (context : TxContext) : BuilderResult ResolveContext := do
  let inputs ← context.inputs.mapM builder.bindInput
  let (boundOutputs, genesisGroups) ← context.outputs.zipIdx.foldlM (builder.bindOutput inputs)
    ([], ∅)
  let stateContext ← genesisGroups.entries.foldlM
    (bindGroup crates context boundOutputs) StateContext.empty
  let outputs ← boundOutputs.zipIdx.mapM (resolveOutput stateContext)
  pure
    { inputs := inputs
      outputs := outputs
      lockTime := context.lockTime
      subnetworkId := context.subnetworkId
      gas := context.gas
      payload := context.payload }

/-! ## the unsigned transaction -/

/-- `TX_VERSION_TOCCATA` -/
def txVersion : UInt16 := 1

variable (crates)

/-- an input without its signature script, and the output that it spends -/
def unsignedInput (item : ResolveInput × Nat) : BuilderResult (TransactionInput × UtxoEntry) :=
  let (input, inputIndex) := item
  match input with
  | .actor input => do
    rejectIf (input.source.utxo.covenantId = none)
      (.error (.missingActorInputCovenantId inputIndex input.source.actor.text))
    let expectedScript ← actorScript crates input.contractRef input.source.state
    rejectIf (input.source.utxo.scriptPublicKey ≠ expectedScript)
      (.error (.actorInputScriptMismatch inputIndex input.source.actor.text))
    pure (⟨input.source.outpoint, [], input.source.sequence, 0⟩, input.source.utxo)
  | .ordinary input => pure (⟨input.outpoint, [], input.sequence, 0⟩, input.utxo)

def outputScript (owner : ResolvedOutputOwner) : BuilderResult ScriptPublicKey :=
  match owner with
  | .actor actor => actorScript crates actor.contract actor.state
  | .spk scriptPublicKey => pure scriptPublicKey

def unsignedOutput (output : ResolvedOutput) : BuilderResult TransactionOutput := do
  let scriptPublicKey ← outputScript crates output.owner
  pure ⟨output.value, scriptPublicKey, output.binding.covenant⟩

def unsignedTransaction (context : ResolveContext) : BuilderResult MutableTransaction := do
  let inputs ← context.inputs.zipIdx.mapM (unsignedInput crates)
  let outputs ← context.outputs.mapM (unsignedOutput crates)
  let transaction : Transaction :=
    { version := txVersion
      inputs := inputs.map Prod.fst
      outputs := outputs
      lockTime := context.lockTime
      subnetworkId := context.subnetworkId
      gas := context.gas
      payload := context.payload }
  pure (MutableTransaction.withEntries transaction (inputs.map Prod.snd))

end TxBuilder

theorem TxBuilder.fromBundle_ok {crates : RuntimeCrates} {bundle : ArtifactBundle crates.toCrates}
    {builder : TxBuilder crates} (h : TxBuilder.fromBundle bundle = .ok builder) :
    builder.bundle = bundle := by
  unfold TxBuilder.fromBundle at h
  split at h
  next => cases h
  next =>
    split at h
    next => cases h
    next =>
      obtain rfl := Except.ok.inj h
      rfl

theorem TxBuilder.fromBundle_bundle {crates : RuntimeCrates} (builder : TxBuilder crates) :
    TxBuilder.fromBundle builder.bundle = .ok builder := by
  obtain ⟨bundle, hdependencies, hinterfaces⟩ := builder
  unfold TxBuilder.fromBundle
  dsimp only
  split
  next e h =>
    rw [hdependencies] at h
    cases h
  next =>
    split
    next e h =>
      rw [hinterfaces] at h
      cases h
    next => rfl

/-! ## a sample -/

/-- the hashes of two redeem scripts, of a queen of age 7 and of a new drone -/
def scriptHashes : List (Bytes × Bytes) :=
  [([1, 10, 64] ++ queenHash.bytes ++ workerHash.bytes ++ [1, 7, 9],
      [85, 225, 120, 145, 22, 122, 211, 204, 146, 194, 7, 92, 53, 137, 212, 231, 230, 114, 138, 15,
        185, 229, 240, 183, 28, 234, 86, 88, 36, 194, 120, 20]),
    ([1, 12, 1, 0, 9],
      [160, 87, 195, 201, 229, 191, 213, 159, 39, 216, 61, 112, 173, 225, 123, 15, 181, 247, 154, 94,
        78, 191, 38, 104, 150, 9, 175, 206, 59, 244, 141, 43])]

/-- pays to the hash of a script -/
def hashedScript (script : Bytes) : ScriptPublicKey :=
  ⟨0, [170, 32] ++ (scriptHashes.lookup script).getD [] ++ [135]⟩

def broodOutpoint : TransactionOutpoint := ⟨Digest.repeated 17, 0⟩

def broodId : Digest where
  bytes := [113, 193, 169, 198, 240, 118, 211, 115, 11, 100, 84, 47, 147, 125, 169, 3, 166, 83, 47,
    235, 37, 6, 67, 160, 255, 183, 194, 15, 234, 6, 23, 101]
  length_bytes := rfl

/-- the queen and the drone as outputs of a transaction -/
def broodGroup : List (UInt32 × TransactionOutput) :=
  [(0, ⟨1000, hashedScript ([1, 10, 64] ++ queenHash.bytes ++ workerHash.bytes ++ [1, 7, 9]), none⟩),
    (1, ⟨2000, hashedScript [1, 12, 1, 0, 9], none⟩)]

def hiveRuntimeCrates : RuntimeCrates :=
  { hiveCrates with
    decodeHex := fun _ => .ok []
    encodeStructPayload := fun _ _ _ _ => .ok []
    payToScriptHash := hashedScript
    covenantId := fun outpoint outputs =>
      if outpoint = broodOutpoint ∧ outputs = broodGroup then broodId else default }

def hiveBuilder : TxBuilder hiveRuntimeCrates where
  bundle := hiveBundle
  dependencies := by rfl
  interfaces := by rfl

def cellState (age : UInt8) : BTreeMap String ArtifactValue :=
  BTreeMap.ofList [("age", .byte age)]

/-- a drone that breeds a queen and a twin -/
def broodContext : TxContext where
  inputs := [.actor
    { actor := ⟨none, "Drone"⟩
      state := cellState 0
      entry := ⟨"breed", .static [.value (.bytes queenHandleHash.bytes)]⟩
      outpoint := broodOutpoint
      utxo := ⟨3000, hashedScript [1, 12, 1, 0, 9], 0, false, some (Digest.repeated 34)⟩
      sequence := 0 }]
  outputs :=
    [⟨.actor ⟨none, "Queen"⟩ (.static (cellState 7)), .genesis 0 "spawn::brood", 1000⟩,
      ⟨.actor ⟨none, "Drone"⟩ (.static (cellState 0)), .genesis 0 "spawn::brood", 2000⟩]
  lockTime := 0
  subnetworkId := []
  gas := 0
  payload := []

def broodBound : ResolveContext :=
  (hiveBuilder.bindContext broodContext).toOption.get (by decide +kernel)

theorem broodBound_eq : hiveBuilder.bindContext broodContext = .ok broodBound := eq_ok_get _

end Argent.Runtime
