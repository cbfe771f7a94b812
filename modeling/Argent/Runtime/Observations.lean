import Argent.Runtime.Arguments
import Argent.Runtime.InputCounts

/-!
# Resolution of observations

The covenants that the entry of an input observes, found among the inputs and outputs of the
transaction by their covenant ids and compared with what the entry declares of them.

* `resolveObservation`      the members of one covenant, position by position;
* `TxBuilder.validateObservedContexts`      whether they are the declared ones;
* `TxBuilder.resolveContextObservations`      the observations of all inputs.
-/

set_option linter.unusedSectionVars false

namespace Argent.Runtime
open Argent.Fallible Argent.Sil Argent.Artifacts

/-! ## covenant ids -/

/-- `Hash::from_bytes` of exactly 32 bytes -/
def digestOfBytes (bytes : Bytes) : Option Digest :=
  if h : bytes.length = 32 then some ⟨bytes, h⟩ else none

def covenantIdValue (input : ResolveActorInput) (args : ResolvedEntryArgs)
    (observe : ObserveArtifact) : BuilderResult ArtifactValue :=
  match observe.covenantIdSource with
  | .stateField field => okOr (input.source.state.get field) (invalidTransition input
      ("observe `" ++ observe.name ++ "` references missing state field `" ++ field ++ "`"))
  | .entryArgument index => okOr args.values[index]? (invalidTransition input
      ("observe `" ++ observe.name ++ "` references missing entry argument " ++ toString index))

def observedCovenantId (input : ResolveActorInput) (args : ResolvedEntryArgs)
    (observe : ObserveArtifact) : BuilderResult Digest := do
  let value ← covenantIdValue input args observe
  match value with
  | .bytes bytes => okOr (digestOfBytes bytes) (.error (.invalidObservedCovenantId observe.name))
  | _ => fail (.invalidObservedCovenantId observe.name)

/-! ## members of an observed covenant -/

def matchingObservedInputs (context : ResolveContext) (covenantId : Digest) : List Nat :=
  (context.inputs.zipIdx.filter fun item => item.1.covenantId = some covenantId).map (·.2)

def matchingObservedOutputs (unsigned : MutableTransaction) (covenantId : Digest) : List Nat :=
  (unsigned.tx.outputs.zipIdx.filter fun item =>
    item.1.covenant.any fun binding => binding.covenantId = covenantId).map (·.2)

def requireObservedCount (observe : String) (side : ObservedActorSideArtifact)
    (expected found : Nat) : BuilderResult PUnit :=
  rejectIf (found ≠ expected) (.error (.observedCountMismatch observe side expected found))

/-- all actors of an observed covenant are of one app -/
def mergeObservedApp (observe : String) (app : Option String) (candidate : String) :
    BuilderResult (Option String) :=
  match app with
  | some expected => do
    rejectIf (expected ≠ candidate) (.error (.observedAppMismatch observe expected candidate))
    pure (some expected)
  | none => pure (some candidate)

def resolveObservedInput (context : ResolveContext) (observe : String)
    (state : Option String × BTreeMap String ObservedInput) (item : ObservedActorArtifact × Nat) :
    BuilderResult (Option String × BTreeMap String ObservedInput) := do
  let (declaration, index) := item
  let candidate ← expect context.inputs[index]? "index out of bounds"
  match candidate with
  | .ordinary _ => fail (.missingObservedActorMetadata observe .input declaration.name index)
  | .actor candidate => do
    let app ← mergeObservedApp observe state.1 (artifactAppAlias candidate.artifact.app)
    pure (app, state.2.insert declaration.name
      ⟨⟨candidate.source.actor.actor, candidate.source.state⟩, candidate.source.utxo⟩)

def resolveObservedOutput (context : ResolveContext) (observe : String)
    (state : Option String × BTreeMap String ObservedActorContext)
    (item : ObservedActorArtifact × Nat) :
    BuilderResult (Option String × BTreeMap String ObservedActorContext) := do
  let (declaration, index) := item
  let candidate ← expect context.outputs[index]? "index out of bounds"
  match candidate.owner with
  | .spk _ => fail (.missingObservedActorMetadata observe .output declaration.name index)
  | .actor actor => do
    let app ← mergeObservedApp observe state.1 (artifactAppAlias actor.contract.artifact.app)
    pure (app, state.2.insert declaration.name ⟨actor.contract.name, actor.state⟩)

/-- declarations are paired with the members of the covenant in transaction order -/
def resolveObservation (context : ResolveContext) (unsigned : MutableTransaction)
    (input : ResolveActorInput) (observe : ObserveArtifact) (covenantId : Digest) :
    BuilderResult ObservedCovenantContext := do
  let matchingInputs := matchingObservedInputs context covenantId
  requireObservedCount observe.name .input observe.inputs.length matchingInputs.length
  let matchingOutputs := matchingObservedOutputs unsigned covenantId
  requireObservedCount observe.name .output observe.outputs.length matchingOutputs.length
  let (app, inputs) ← (observe.inputs.zip matchingInputs).foldlM
    (resolveObservedInput context observe.name) (none, ∅)
  let (app, outputs) ← (observe.outputs.zip matchingOutputs).foldlM
    (resolveObservedOutput context observe.name) (app, ∅)
  let app ← okOr app (invalidTransition input ("observe `" ++ observe.name ++
    "` has no actor inputs or outputs from which to resolve an app"))
  pure ⟨app, inputs, outputs⟩

def resolveObserve (context : ResolveContext) (unsigned : MutableTransaction)
    (input : ResolveActorInput) (args : ResolvedEntryArgs) (observations : ResolvedObservations)
    (observe : ObserveArtifact) : BuilderResult ResolvedObservations := do
  let covenantId ← observedCovenantId input args observe
  let observation ← resolveObservation context unsigned input observe covenantId
  pure (observations.insert observe.name observation)

/-! ## validation -/

def sameLoweredStateLayout (left right : ArgentStateArtifact) : Bool :=
  left.fields.length == right.fields.length &&
    (left.fields.zip right.fields).all fun pair =>
      pair.1.name == pair.2.name && pair.1.ty == pair.2.ty

namespace TxBuilder
variable {crates : RuntimeCrates} (builder : TxBuilder crates)

def validateObservedActor (observingArtifact : Artifact) (app observeName : String)
    (side : ObservedActorSideArtifact) (expected : ObservedActorArtifact) (foundActor : String) :
    BuilderResult PUnit :=
  match expected.target with
  | .dynamicActor expectedState => do
    let artifact ← builder.bundle.app app
    let found ← actorRefInArtifact artifact foundActor
    rejectIf (stateSatisfies found.artifact found.actor.state expectedState = false)
      (.error (.observedStateLayoutMismatch observeName side expected.name foundActor expectedState))
    let expectedLayout ← stateArtifact observingArtifact expectedState
    let foundLayout ← stateArtifact found.artifact found.actor.state
    rejectIf (sameLoweredStateLayout expectedLayout foundLayout = false)
      (.error (.observedStateLayoutMismatch observeName side expected.name foundActor expectedState))
  | .staticActor expectedApp expectedActor => do
    let expectedAlias := artifactAppAlias expectedApp
    rejectIf (app ≠ expectedAlias) (.error (.observedAppMismatch observeName expectedAlias app))
    rejectIf (expectedActor ≠ foundActor)
      (.error (.observedActorMismatch observeName side expected.name expectedActor foundActor))
    if expectedApp = observingArtifact.app then do
      let _ ← contractInArtifact observingArtifact expectedActor
      pure ⟨⟩
    else builder.bundle.validateActorInterface observingArtifact app expectedActor

def rejectUnknownHandle (observeName : String) (side : ObservedActorSideArtifact)
    (expected : List ObservedActorArtifact) (handle : String) : BuilderResult PUnit :=
  rejectIf (handle ∉ expected.map (·.name)) (.error (.unknownObservedActor observeName side handle))

/-- an observed input spends an output of its actor and state -/
def validateObservedInput (observingArtifact : Artifact) (observeName : String)
    (context : ObservedCovenantContext) (input : ObservedActorArtifact) : BuilderResult PUnit := do
  let observed ← okOr (context.inputs.get input.name)
    (.error (.missingObservedActor observeName .input input.name))
  builder.validateObservedActor observingArtifact context.app observeName .input input observed.actor
  let contractRef ← builder.bundle.contractRefInApp context.app observed.actor
  let expectedScript ← actorScript crates contractRef observed.state
  rejectIf (observed.utxo.scriptPublicKey ≠ expectedScript)
    (.error (.observedUtxoScriptMismatch observeName input.name observed.actor))

def validateObservedInputs (observingArtifact : Artifact) (observeName : String)
    (expected : List ObservedActorArtifact) (context : ObservedCovenantContext) :
    BuilderResult PUnit := do
  context.inputs.keys.toList.forM (rejectUnknownHandle observeName .input expected)
  expected.forM (builder.validateObservedInput observingArtifact observeName context)

def validateObservedOutput (observingArtifact : Artifact) (observeName : String)
    (context : ObservedCovenantContext) (output : ObservedActorArtifact) : BuilderResult PUnit := do
  let observed ← okOr (context.outputs.get output.name)
    (.error (.missingObservedActor observeName .output output.name))
  builder.validateObservedActor observingArtifact context.app observeName .output output
    observed.actor
  let contractRef ← builder.bundle.contractRefInApp context.app observed.actor
  let _ ← redeemScriptForContract crates contractRef observed.state
  pure ⟨⟩

def validateObservedOutputs (observingArtifact : Artifact) (observeName : String)
    (expected : List ObservedActorArtifact) (context : ObservedCovenantContext) :
    BuilderResult PUnit := do
  context.outputs.keys.toList.forM (rejectUnknownHandle observeName .output expected)
  expected.forM (builder.validateObservedOutput observingArtifact observeName context)

def validateObservedCovenant (observingArtifact : Artifact) (observeName : String)
    (observe : ObserveArtifact) (context : ObservedCovenantContext) : BuilderResult PUnit := do
  let _ ← builder.bundle.app context.app
  builder.validateObservedInputs observingArtifact observeName observe.inputs context
  builder.validateObservedOutputs observingArtifact observeName observe.outputs context

def validateObservedContext (observingArtifact : Artifact) (observed : ResolvedObservations)
    (observe : ObserveArtifact) : BuilderResult PUnit := do
  let context ← okOr (observed.get observe.name) (.error (.missingObservedCovenant observe.name))
  builder.validateObservedCovenant observingArtifact observe.name observe context

def validateObservedContexts (observingArtifact : Artifact) (actorName entryName : String)
    (entry : EntryArtifact) (observed : ResolvedObservations) : BuilderResult PUnit := do
  observed.keys.toList.forM fun observeName => do
    let _ ← observe actorName entryName entry observeName
    pure ⟨⟩
  entry.observes.forM (builder.validateObservedContext observingArtifact observed)

/-! ## all inputs -/

def missingArgsPanic : String := "argument resolution precedes observation resolution"

/-- the observations of one actor input; of the other inputs only what binding found is read -/
def resolveActorObservations (context : ResolveContext) (unsigned : MutableTransaction)
    (input : ResolveActorInput) : BuilderResult ResolvedObservations := do
  let args ← expect input.args missingArgsPanic
  let observations ← input.artifactEntry.observes.foldlM
    (resolveObserve context unsigned input args) ∅
  builder.validateObservedContexts input.artifact input.source.actor.actor input.source.entry.name
    input.artifactEntry observations
  pure observations

def resolveInputObservations (context : ResolveContext) (unsigned : MutableTransaction)
    (input : ResolveInput) : BuilderResult ResolveInput :=
  match input with
  | .ordinary input => pure (.ordinary input)
  | .actor input => do
    let observations ← builder.resolveActorObservations context unsigned input
    pure (.actor { input with observations := some observations })

def resolveContextObservations (context : ResolveContext) (unsigned : MutableTransaction) :
    BuilderResult ResolveContext := do
  let inputs ← context.inputs.mapM (builder.resolveInputObservations context unsigned)
  pure { context with inputs := inputs }

end TxBuilder

end Argent.Runtime
