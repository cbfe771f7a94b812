import Argent.Artifacts.Abi

/-!
# The Argent artifact

What the compiler records around the portable ABI: actors with their entries, the template plan
with its receipts, route tables, route proofs and route families, and the recipes by which the
runtime finds hidden arguments.

* `TemplateHashLookup`      template hashes by receipt id and by actor;
* `TemplatePlanError`      the ways in which a template plan is rejected.
-/

set_option linter.unusedSectionVars false

namespace Argent.Artifacts
open Argent.Sil (Bytes)

/-! ## the template plan -/

/-- the frame of an actor-type handle -/
structure ActorTemplateArtifact where
  leading : Bytes
  trailing : Bytes
  hash : Digest
deriving DecidableEq

/-- `contextFields` are fixed in the leading part of the template, `state` stays open -/
structure ActorTypeHandleArtifact where
  state : String
  contextFields : List String
  template : ActorTemplateArtifact
deriving DecidableEq

structure TemplateReceiptArtifact where
  id : String
  actor : String
  contract : String
  symbol : String
  silTemplateHash : Digest
  actorTypeHandle : ActorTypeHandleArtifact
deriving DecidableEq

inductive RuntimeRouteLeafArtifact where
  | contract (contract : String)
  | digest (id : String)
deriving DecidableEq, Repr

/-- how the template plan derives a compiler-owned runtime field -/
inductive RuntimeFieldRoleArtifact where
  | template (contract : String)
  | templateTable (contracts : List String)
  | templateDigest (id : String)
  | templateRoot (leaves : List RuntimeRouteLeafArtifact)
deriving DecidableEq, Repr

structure RuntimeFieldRolePlanArtifact where
  name : String
  role : RuntimeFieldRoleArtifact
deriving DecidableEq, Repr

structure RuntimeStatePlanArtifact where
  contract : String
  source : String
  fieldRoles : List RuntimeFieldRolePlanArtifact
deriving DecidableEq, Repr

/-- a committed leaf: the template of an actor or the proof root of a route family -/
inductive RouteTemplateLeafArtifact where
  | template (actor templateId : String)
  | routeFamily (familyId proofId : String)
deriving DecidableEq, Repr

structure RouteTemplateTableEntryArtifact where
  index : Nat
  offset : Nat
  leaf : RouteTemplateLeafArtifact
deriving DecidableEq, Repr

structure RouteTemplateTableArtifact where
  id : String
  state : String
  field : String
  byteLen : Nat
  entries : List RouteTemplateTableEntryArtifact
deriving DecidableEq, Repr

inductive RouteTemplateProofSideArtifact where
  | left
  | right
deriving DecidableEq, Repr

structure RouteTemplateProofStepArtifact where
  side : RouteTemplateProofSideArtifact
  hashHex : String
deriving DecidableEq, Repr

structure RouteTemplateProofLeafArtifact where
  index : Nat
  leaf : RouteTemplateLeafArtifact
  hashHex : String
  proof : List RouteTemplateProofStepArtifact
deriving DecidableEq, Repr

structure RouteTemplateProofArtifact where
  id : String
  tableId : String
  state : String
  field : String
  rootHex : String
  leaves : List RouteTemplateProofLeafArtifact
deriving DecidableEq, Repr

structure RouteTemplateFamilyArtifact where
  id : String
  state : String
  representativeActor : String
  entryActors : List String
  tableId : String
  actors : List String
deriving DecidableEq, Repr

inductive ObservedActorSideArtifact where
  | input
  | output
deriving DecidableEq, Repr

inductive HiddenParamSubjectArtifact where
  | actor (actor : String)
  | observedActor (observe : String) (side : ObservedActorSideArtifact) (handle actor : String)
  | spawnActor (spawn handle actor : String)
  | observedOutputField (observe handle state field : String)
  | routeFamily (familyId : String)
  | templateSelector (selector : String)
  | stateExpansion (state field memoryState : String)
deriving DecidableEq, Repr

inductive HiddenParamPurposeArtifact where
  | spawnOutputIndex
  | templatePrefixBytes
  | templateSuffixBytes
  | templatePrefixLen
  | templateSuffixLen
  | templateHash
  | routeTemplateLeaf
  | routeTemplateProof
  | routeFamilyTable
  | routeFamilyProof
  | stateExpansionPreimage
  | observedOutputFieldValue
deriving DecidableEq, Repr

structure WitnessRecipeArtifact where
  id : String
  templateId : Option String
  subject : HiddenParamSubjectArtifact
  param : String
  purpose : HiddenParamPurposeArtifact
  routeProofId : Option String
deriving DecidableEq, Repr

structure TemplatePlanArtifact where
  templates : List TemplateReceiptArtifact
  runtimeStates : List RuntimeStatePlanArtifact
  routeTables : List RouteTemplateTableArtifact
  routeProofs : List RouteTemplateProofArtifact
  routeFamilies : List RouteTemplateFamilyArtifact
  witnessRecipes : List WitnessRecipeArtifact
deriving DecidableEq

/-! ## actors and entries -/

structure EntryRefArtifact where
  actor : String
  entry : String
deriving DecidableEq, Repr

structure ActorAbiRefArtifact where
  contract : String
deriving DecidableEq, Repr

structure EntryAbiRefArtifact where
  contract : String
  entry : String
deriving DecidableEq, Repr

inductive EntryKindArtifact where
  | leader
  | delegate
deriving DecidableEq, Repr

inductive CardinalityArtifact where
  | one
  | range (minimum maximum : Int)
deriving DecidableEq, Repr

inductive ActorTargetArtifact where
  | staticActor (app actor : String)
  | dynamicActor (state : String)
deriving DecidableEq, Repr

structure SpawnOutputArtifact where
  name : String
  actor : String
  state : String
  groupIndex : Nat
  cardinality : CardinalityArtifact
  target : Option ActorTargetArtifact
deriving DecidableEq, Repr

structure SpawnArtifact where
  name : String
  covenant : String
  outputs : List SpawnOutputArtifact
deriving DecidableEq, Repr

structure TemplateSelectorArtifact where
  name : String
  actorEnum : String
  state : String
  variants : List String
  fixedActor : Option String
deriving DecidableEq, Repr

structure ObservedActorArtifact where
  name : String
  target : ActorTargetArtifact
  cardinality : CardinalityArtifact
deriving DecidableEq, Repr

/-- a field of the source state, or a user argument by its position -/
inductive CovenantIdSourceArtifact where
  | stateField (field : String)
  | entryArgument (index : Nat)
deriving DecidableEq, Repr

structure ObserveArtifact where
  name : String
  covenantIdSource : CovenantIdSourceArtifact
  inputs : List ObservedActorArtifact
  outputs : List ObservedActorArtifact
deriving DecidableEq, Repr

structure WitnessArtifact where
  recipeId : String
  param : String
  subject : HiddenParamSubjectArtifact
  purpose : HiddenParamPurposeArtifact
  routeProofId : Option String
deriving DecidableEq, Repr

structure HiddenParamArtifact where
  recipeId : String
  name : String
  ty : TypeArtifact
  subject : HiddenParamSubjectArtifact
  purpose : HiddenParamPurposeArtifact
  routeProofId : Option String
deriving DecidableEq, Repr

structure ConsumeArtifact where
  name : String
  actor : String
  cardinality : CardinalityArtifact
deriving DecidableEq, Repr

structure EmitOutputArtifact where
  name : String
  authIndex : Option Nat
  actors : List String
  cardinality : CardinalityArtifact
deriving DecidableEq, Repr

inductive EmitArtifact where
  | none
  | outputs (outputs : List EmitOutputArtifact)
deriving DecidableEq, Repr

inductive RouteSuccessorArtifact where
  | exactSelf
  | constructed (actor templateId stateExpr : String)
deriving DecidableEq, Repr

structure RouteArtifact where
  output : String
  successor : RouteSuccessorArtifact
deriving DecidableEq, Repr

structure EntryArtifact where
  name : String
  kind : EntryKindArtifact
  abi : EntryAbiRefArtifact
  /-- the recipes of the route plan -/
  witnessRecipeIds : List String
  hiddenParams : List HiddenParamArtifact
  templateSelectors : List TemplateSelectorArtifact
  observes : List ObserveArtifact
  spawns : List SpawnArtifact
  witnesses : List WitnessArtifact
  consumes : List ConsumeArtifact
  emits : EmitArtifact
  routes : List RouteArtifact
deriving DecidableEq, Repr

structure ActorArtifact where
  name : String
  state : String
  abi : ActorAbiRefArtifact
  leaderFor : List EntryRefArtifact
  entries : List EntryArtifact
deriving DecidableEq, Repr

/-! ## the artifact -/

structure AppDependencyArtifact where
  app : String
  artifactId : String
deriving DecidableEq, Repr

structure GeneratorArtifact where
  name : String
  version : String
deriving DecidableEq, Repr

structure TemplateRefArtifact where
  id : String
  actor : String
  symbol : String
deriving DecidableEq, Repr

structure ActorInterfaceArtifact where
  id : String
  app : String
  actor : String
  state : String
  fingerprintHex : String
deriving DecidableEq, Repr

structure InterfaceSetArtifact where
  exports : List ActorInterfaceArtifact
  imports : List ActorInterfaceArtifact
deriving DecidableEq, Repr

structure ArgentFieldArtifact where
  name : String
  ty : TypeArtifact
deriving DecidableEq, Repr

structure ArgentStateArtifact where
  name : String
  fields : List ArgentFieldArtifact
deriving DecidableEq, Repr

structure StateDigestExpansionArtifact where
  field : String
  state : String
deriving DecidableEq, Repr

structure StateExpansionArtifact where
  state : String
  base : String
  digests : List StateDigestExpansionArtifact
deriving DecidableEq, Repr

structure ArgentArtifact where
  templates : List TemplateRefArtifact
  templatePlan : TemplatePlanArtifact
  interfaces : InterfaceSetArtifact
  states : List ArgentStateArtifact
  stateExpansions : List StateExpansionArtifact
  actors : List ActorArtifact
deriving DecidableEq

structure Artifact where
  schemaVersion : Nat
  id : String
  generator : GeneratorArtifact
  app : String
  dependencies : List AppDependencyArtifact
  root : String
  modules : List String
  argent : ArgentArtifact
  silAbi : SilAbiArtifact

/-- an artifact with nothing in it -/
def Artifact.blank : Artifact where
  schemaVersion := 1
  id := ""
  generator := ⟨"argentc", "0"⟩
  app := ""
  dependencies := []
  root := ""
  modules := []
  argent := ⟨[], ⟨[], [], [], [], [], []⟩, ⟨[], []⟩, [], [], []⟩
  silAbi := ⟨1, ∅, ∅⟩

/-! ## other crates -/

/-- the functions of `silverscript-abi`, and what identifies an artifact -/
structure Crates extends Hashes where
  /-- `SilAbiArtifact::check_schema_version` -/
  checkSchemaVersion : SilAbiArtifact → Except ArtifactVersionError Unit
  /-- `SilAbiArtifact::check_consistency`, with the text of the error -/
  checkSilAbi : SilAbiArtifact → Except String Unit
  /-- `CompiledContractArtifact::script_parts` -/
  scriptParts : CompiledContractArtifact → Bytes → Option (Bytes × Bytes × Bytes)
  /-- `template_hash` of a prefix and a suffix -/
  templateHash : Bytes → Bytes → Digest
  encodeRuntimeStateScript : SilAbiArtifact → RuntimeStateArtifact →
    BTreeMap String ArtifactValue → Except CodecError Bytes
  decodeRuntimeStateScript : SilAbiArtifact → RuntimeStateArtifact → Bytes →
    Except CodecError (BTreeMap String ArtifactValue)
  /-- the text of a codec error -/
  codecText : CodecError → String
  /-- `serde_json::to_vec`, with the text of the error -/
  artifactJson : Artifact → Except String Bytes
  /-- `blake2b_simd` with a hash of 32 bytes -/
  blake2b256 : Bytes → Digest

/-! ## lookups -/

structure TemplateHashRef where
  id : String
  actor : String
  hash : Digest
deriving DecidableEq

def TemplateReceiptArtifact.hashRef (template : TemplateReceiptArtifact) : TemplateHashRef where
  id := template.id
  actor := template.actor
  hash := template.silTemplateHash

/-- template hashes, without a completed artifact -/
structure TemplateHashLookup where
  templateHashById : String → Option TemplateHashRef
  templateHashByActor : String → Option TemplateHashRef

/-- the lookup of a list of receipts -/
def receiptLookup (templates : List TemplateReceiptArtifact) : TemplateHashLookup where
  templateHashById id := (templates.find? fun template => template.id == id).map (·.hashRef)
  templateHashByActor actor :=
    (templates.find? fun template => template.actor == actor).map (·.hashRef)

/-- the lookup of receipts indexed by their ids -/
def indexedLookup (templates : BTreeMap String TemplateReceiptArtifact) : TemplateHashLookup where
  templateHashById id := (templates.get id).map (·.hashRef)
  templateHashByActor actor :=
    ((templates.entries.map Prod.snd).find? fun template => template.actor == actor).map (·.hashRef)

/-! ## errors -/

/-- the ways in which a template plan is rejected -/
inductive TemplatePlanError where
  | duplicateTemplateId (id : String)
  | duplicateRouteTableId (id : String)
  | duplicateRouteProofId (id : String)
  | duplicateWitnessRecipeId (id : String)
  | missingTemplateReceipt (actor id : String)
  | unknownContract (contract : String)
  | templateContractMismatch (id actor contract : String)
  | templateRefMismatch (id actor : String)
  | unreferencedTemplateReceipt (id : String)
  | templateHashMismatch (id expected found : String)
  | actorTypeHandleMismatch (id message : String)
  | invalidHex (id message : String)
  | routeTableLenMismatch (id : String) (byteLen expected : Nat)
  | missingRouteTableTemplate (id actor templateId : String)
  | routeTableTemplateMismatch (id actor templateId templateActor : String)
  | missingRouteTableFamily (id familyId : String)
  | routeTableFamilyProofMismatch (id familyId proofId expected : String)
  | routeTableOffsetMismatch (id : String) (index offset expected : Nat)
  | missingRuntimeRouteTable (contract field id : String)
  | runtimeRouteTableMismatch (contract field id : String)
  | duplicateRuntimeStatePlan (contract : String)
  | runtimeStatePlanMismatch (contract message : String)
  | unreferencedRouteTable (id : String)
  | missingRouteProofTable (id tableId : String)
  | missingRouteProof (tableId : String)
  | routeProofTableMismatch (id tableId : String)
  | routeProofLeafHashMismatch (id : String) (index : Nat) (expected found : String)
  | routeProofRootMismatch (id expected found : String)
  | routeProofMismatch (id : String) (index : Nat) (expected found : String)
  | recursiveRouteFamilyLeaf (id familyId : String)
  | nestedRouteFamilyLeaf (id tableId familyId : String)
  | duplicateRouteFamilyId (id : String)
  | routeFamilyTooSmall (id : String)
  | duplicateRouteFamilyActor (id actor : String)
  | missingRouteFamilyActor (id actor : String)
  | routeFamilyRepresentativeOutsideFamily (id representative : String)
  | duplicateRouteFamilyEntryActor (id actor : String)
  | missingRouteFamilyEntryActor (id actor : String)
  | routeFamilyStateMismatch (id actor expected found : String)
  | missingRouteFamilyTable (id tableId : String)
  | routeFamilyTableMismatch (id tableId expected : String)
  | missingWitnessTemplate (id templateId : String)
  | missingWitnessImportedTemplate (id actor : String)
  | missingWitnessRouteFamily (id familyId : String)
  | missingWitnessRouteProof (id routeProofId : String)
  | witnessTemplateMismatch (id actor templateActor : String)
  | missingHiddenParamRecipe (entry param recipeId : String)
  | hiddenParamRecipeMismatch (entry param recipeId : String)
  | missingEntryWitnessRecipe (entry param recipeId : String)
  | entryWitnessRecipeMismatch (entry param recipeId : String)
  | invalidSpawnMetadata (entry message : String)
  | missingRouteTemplate (entry actor templateId : String)
  | routeTemplateMismatch (entry actor templateId templateActor : String)
  | routePlanRecipeNotExposed (entry recipeId : String)
  | missingRoutePlanRecipe (entry recipeId : String)
deriving Repr

end Argent.Artifacts
