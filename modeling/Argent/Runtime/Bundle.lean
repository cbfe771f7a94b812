import Argent.Artifacts.Consistency

/-!
# Artifact bundles

The artifacts that a transaction builder works with, and the lookups it makes in one of them.

* `ArtifactBundle`      artifacts under their app aliases, each of them consistent;
* `routeFamilyTableBytesInArtifact`      the table that opens a route family;
* `actorTypeHandleInArtifact`      the handle by which an actor is referred to from outside.
-/

set_option linter.unusedSectionVars false

namespace Argent.Runtime
open Argent.Fallible Argent.Sil Argent.Artifacts

/-! ## errors -/

inductive BuilderError where
  | artifactVerification (app : String) (source : ArtifactVerificationError)
  | codec (error : CodecError)
  | unknownActor (actor : String)
  | duplicateAppAlias (appAlias : String)
  | unknownAppAlias (appAlias : String)
  | appAliasMismatch (app expected found : String)
  | missingDependencyArtifact (app dependency expectedArtifactId : String)
  | dependencyArtifactMismatch (app dependency expectedArtifactId foundDependency
      foundArtifactId : String)
  | missingInterface (app direction actor : String)
  | interfaceMismatch (app actor expectedFingerprint foundFingerprint : String)
  | runtimeStatePlanMismatch (contract message : String)
  | hiddenRuntimeFieldProvided (contract field : String)
  | missingStateExpansionPreimage (contract field memoryState : String)
  | unknownRouteFamily (family : String)
  | unknownRouteTable (table : String)
  | nestedRouteFamilyTableLeaf (tableId familyId : String)
  | unexpectedHiddenSubject (param expected : String)
  | missingTemplateSelectorChoice (selector : String)
  | invalidTemplateSelectorChoice (selector actor : String)
  | actorArgumentWithoutSelector (actor entry param selectedActor : String)
  | missingHiddenRouteProof (param : String)
  | unknownRouteProof (routeProofId : String)
  | missingRouteProofLeaf (routeProofId leaf : String)
  | observedStateLayoutMismatch (observe : String) (side : ObservedActorSideArtifact)
      (handle actor state : String)
  | unknownObserve (actor entry observe : String)
  | missingObservedCovenant (observe : String)
  | missingObservedActor (observe : String) (side : ObservedActorSideArtifact) (handle : String)
  | unknownObservedActor (observe : String) (side : ObservedActorSideArtifact) (handle : String)
  | observedActorMismatch (observe : String) (side : ObservedActorSideArtifact)
      (handle expected found : String)
  | observedUtxoScriptMismatch (observe handle actor : String)
  | invalidObservedCovenantId (observe : String)
  | observedCountMismatch (observe : String) (side : ObservedActorSideArtifact)
      (expected found : Nat)
  | missingObservedActorMetadata (observe : String) (side : ObservedActorSideArtifact)
      (handle : String) (index : Nat)
  | missingActorTypeHandle (actor state : String)
  | unknownState (app state : String)
  | missingSpawnOutput (spawn handle : String) (groupIndex : Nat)
  | missingSpawnGroup (input : Nat) (spawn : String)
  | invalidSpawnGroup (spawn message : String)
  | spawnAuthorizingInputNotActor (input : UInt16) (spawn : String)
  | unknownSpawn (input : UInt16) (spawn : String)
  | invalidGenesisPath (path : String)
  | genesisAuthorizingInputOutOfRange (authorizingInput : UInt16) (inputCount : Nat)
  | genesisAuthorizingInputIndexOverflow (input : Nat)
  | genesisOutputIndexOverflow (output : Nat)
  | unboundActorOutput (outputIndex : Nat) (actor : String)
  | genesisOutputStateCallback (outputIndex : Nat) (actor : String)
  | outputStateCallback (outputIndex : Nat) (actor source : String)
  | observedAppMismatch (observe expected found : String)
  | unknownEntry (actor entry : String)
  | missingActorInputCovenantId (inputIndex : Nat) (actor : String)
  | actorInputScriptMismatch (inputIndex : Nat) (actor : String)
  | invalidTransition (actor entry message : String)
  | leaderActorInputCountMismatch (inputIndex : Nat) (actor entry : String) (expected found : Nat)
      (leaderFor : List String)
  | leaderActorInputCardinalityMismatch (inputIndex : Nat) (actor entry : String)
      (minimum maximum found : Nat) (leaderFor : List String)
  | entryArgsCallback (inputIndex : Nat) (actor entry source : String)
  | inputSigScriptCallback (inputIndex : Nat) (source : String)
  | scriptBuilder (source : String)
  | txScript (source : String)
  | computeBudgetOverflow (inputIndex : Nat) (scriptUnits : UInt64)
  | inputScript (inputIndex : Nat) (source : String)
  | inputEntryCountMismatch (inputCount entryCount : Nat)
  | unsupportedTransactionVersion (expected found : UInt16)
  | computeMassLimitExceeded (computeMass limit : UInt64)
  | transientMassLimitExceeded (transientMass limit : UInt64)

/-- a computation of the builder, which can also panic -/
abbrev BuilderResult (α : Type) := Except (Fault BuilderError) α

/-! ## aliases -/

/-- the loop of `to_snake`: `out` is written, `prev` was read last -/
def toSnakeFrom (out : List Char) (prev : Option Char) : List Char → List Char
  | [] => out
  | ch :: chars =>
    let written :=
      if ch.isUpper then
        let insertSep := out.getLast? != some '_' && prev.any fun prev =>
          prev.isLower || prev.isDigit || chars.head?.any Char.isLower
        (if insertSep then out ++ ['_'] else out) ++ [ch.toLower]
      else if ch.isAlphanum then out ++ [ch]
      else if out.getLast? != some '_' && !out.isEmpty then out ++ ['_']
      else out
    toSnakeFrom written (some ch) chars

def toSnake (input : String) : String :=
  String.ofList ((toSnakeFrom [] none input.toList).reverse.dropWhile (· == '_')).reverse

def artifactAppAlias (app : String) : String := toSnake app

example : artifactAppAlias "Token Bridge2Go" = "token_bridge2_go" := by decide +kernel

/-! ## bundles -/

/-- what an attached artifact has to satisfy -/
structure Attached (crates : Crates) (appAlias : String) (artifact : Artifact) : Prop where
  alias_eq : appAlias = artifactAppAlias artifact.app
  consistent : artifact.checkConsistency crates = .ok ⟨⟩

/-- consistent artifacts under their canonical aliases, one of them the primary one -/
structure ArtifactBundle (crates : Crates) where
  primaryAlias : String
  apps : BTreeMap String Artifact
  primary_mem : (apps.get primaryAlias).isSome = true
  attached : ∀ appAlias artifact, apps.get appAlias = some artifact → Attached crates appAlias artifact

def checkArtifactConsistency (crates : Crates) (app : String) (artifact : Artifact) :
    BuilderResult PUnit :=
  match artifact.checkConsistency crates with
  | .ok _ => .ok ⟨⟩
  | .error (.error source) => fail (.artifactVerification app source)
  | .error (.panic message) => .error (.panic message)

theorem checkArtifactConsistency_ok {crates : Crates} {app : String} {artifact : Artifact}
    (h : checkArtifactConsistency crates app artifact = .ok ⟨⟩) :
    artifact.checkConsistency crates = .ok ⟨⟩ := by
  unfold checkArtifactConsistency at h
  split at h
  next heq => exact heq
  next => cases h
  next => cases h

namespace ArtifactBundle
variable {crates : Crates}

/-- a bundle of one artifact, under an explicit alias -/
def named (appAlias : String) (primary : Artifact) : BuilderResult (ArtifactBundle crates) :=
  if halias : appAlias = artifactAppAlias primary.app then
    match hcheck : checkArtifactConsistency crates appAlias primary with
    | .error e => .error e
    | .ok _ => .ok
        { primaryAlias := appAlias
          apps := (∅ : BTreeMap String Artifact).insert appAlias primary
          primary_mem := by rw [BTreeMap.get_insert_self]; rfl
          attached := fun other artifact h => by
            rw [BTreeMap.get_insert] at h
            split_ifs at h with hother
            · obtain rfl := Option.some.inj h
              exact ⟨hother.trans halias, checkArtifactConsistency_ok hcheck⟩
            · cases h }
  else fail (.appAliasMismatch primary.app (artifactAppAlias primary.app) appAlias)

def new (primary : Artifact) : BuilderResult (ArtifactBundle crates) :=
  named (artifactAppAlias primary.app) primary

/-- attaches a further artifact under its canonical alias -/
def withApp (bundle : ArtifactBundle crates) (appAlias : String) (artifact : Artifact) :
    BuilderResult (ArtifactBundle crates) :=
  if halias : appAlias = artifactAppAlias artifact.app then
    if bundle.apps.contains appAlias then fail (.duplicateAppAlias appAlias)
    else
      match hcheck : checkArtifactConsistency crates appAlias artifact with
      | .error e => .error e
      | .ok _ => .ok
          { primaryAlias := bundle.primaryAlias
            apps := bundle.apps.insert appAlias artifact
            primary_mem := by
              rw [BTreeMap.get_insert]
              split_ifs
              · rfl
              · exact bundle.primary_mem
            attached := fun other found h => by
              rw [BTreeMap.get_insert] at h
              split_ifs at h with hother
              · obtain rfl := Option.some.inj h
                exact ⟨hother.trans halias, checkArtifactConsistency_ok hcheck⟩
              · exact bundle.attached other found h }
  else fail (.appAliasMismatch artifact.app (artifactAppAlias artifact.app) appAlias)

def app (bundle : ArtifactBundle crates) (appAlias : String) : BuilderResult Artifact :=
  okOr (bundle.apps.get appAlias) (.error (.unknownAppAlias appAlias))

/-- the primary app's artifact -/
def primary (bundle : ArtifactBundle crates) : Artifact :=
  (bundle.apps.get bundle.primaryAlias).get bundle.primary_mem

theorem primary_eq (bundle : ArtifactBundle crates) :
    bundle.apps.get bundle.primaryAlias = some bundle.primary :=
  (Option.some_get bundle.primary_mem).symm

end ArtifactBundle

/-! ## lookups in one artifact -/

/-- a contract under its name in an artifact -/
structure ContractRef where
  artifact : Artifact
  name : String
  contract : SilContractArtifact

structure ActorRef where
  artifact : Artifact
  actor : ActorArtifact

def contractInArtifact (artifact : Artifact) (name : String) : BuilderResult SilContractArtifact :=
  okOr (artifact.silAbi.contract name) (.error (.unknownActor name))

def contractRefInArtifact (artifact : Artifact) (name : String) : BuilderResult ContractRef := do
  let contract ← contractInArtifact artifact name
  pure ⟨artifact, name, contract⟩

def actorRefInArtifact (artifact : Artifact) (name : String) : BuilderResult ActorRef := do
  let actor ← okOr (artifact.actorNamed name) (.error (.unknownActor name))
  pure ⟨artifact, actor⟩

/-- the first receipt of an actor -/
def TemplatePlanArtifact.receiptOf (plan : TemplatePlanArtifact) (actor : String) :
    Option TemplateReceiptArtifact :=
  plan.templates.find? fun template => template.actor == actor

/-- the template handle by which other apps refer to an actor under a state -/
def actorTypeHandleInArtifact (artifact : Artifact) (actor state : String) :
    BuilderResult Bytes := do
  let actorArtifact ← okOr (artifact.actorNamed actor) (.error (.unknownActor actor))
  let storageState := (artifact.expandedBase actorArtifact.state).getD actorArtifact.state
  let supportsView := state == storageState || state == actorArtifact.state
  let template ← okOr (TemplatePlanArtifact.receiptOf artifact.argent.templatePlan actor)
    (.error (.missingActorTypeHandle actor state))
  let handle := template.actorTypeHandle
  rejectIf (handle.state ≠ storageState ∨ supportsView = false)
    (.error (.missingActorTypeHandle actor state))
  pure handle.template.hash.bytes

/-- the table bytes by which a contract opens a route family -/
def routeFamilyTableBytesInArtifact (artifact : Artifact) (familyId : String) :
    BuilderResult Bytes := do
  let plan := artifact.argent.templatePlan
  let family ← okOr (plan.routeFamilies.find? fun family => family.id == familyId)
    (.error (.unknownRouteFamily familyId))
  let routeTable ← okOr (plan.routeTables.find? fun table => table.id == family.tableId)
    (.error (.unknownRouteTable family.tableId))
  let hashes ← routeTable.entries.mapM fun entry =>
    match entry.leaf with
    | .template actor _ => do
      let contract ← contractInArtifact artifact actor
      pure contract.compiled.templateHash.bytes
    | .routeFamily familyId _ => fail (.nestedRouteFamilyTableLeaf routeTable.id familyId)
  pure hashes.flatten

end Argent.Runtime
