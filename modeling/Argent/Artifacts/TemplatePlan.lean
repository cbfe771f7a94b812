import Argent.Artifacts.RouteProofs
import Argent.Artifacts.Spawns

/-!
# The template plan

The consistency check of the template plan of an artifact, phase by phase as the source runs it:
receipts, route families, runtime states, route tables, route proofs, the tables of the families,
actor-type handles, witness recipes and entries.

* `TemplatePlanArtifact.checkConsistency`      the check;
* `fixedRuntimeContextValue`      the value of a compiler-owned field that the plan fixes;
* `verifyActorTypeHandle`      the check of one actor-type handle.
-/

set_option linter.unusedSectionVars false

namespace Argent.Artifacts
open Argent.Fallible Argent.Sil

/-- a check that can panic -/
abbrev PlanCheck (α : Type) := Except (Fault TemplatePlanError) α

/-- the `Debug` text of a list of names -/
def debugNames (names : List String) : String :=
  "[" ++ String.intercalate ", " (names.map fun name => "\"" ++ name ++ "\"") ++ "]"

/-! ## values that the plan fixes -/

/-- what the plan offers to whoever derives a context value -/
structure TemplatePlanLookup extends TemplateHashLookup where
  routeTables : List RouteTemplateTableArtifact
  routeProofs : List RouteTemplateProofArtifact
  routeFamilies : List RouteTemplateFamilyArtifact

def TemplatePlanArtifact.lookup (plan : TemplatePlanArtifact) : TemplatePlanLookup where
  toTemplateHashLookup := receiptLookup plan.templates
  routeTables := plan.routeTables
  routeProofs := plan.routeProofs
  routeFamilies := plan.routeFamilies

def silTemplateHashBytes (plan : TemplateHashLookup) (actor : String) :
    Except TemplatePlanError Bytes := do
  let template ← okOr (plan.templateHashByActor actor) (.unknownContract actor)
  pure template.hash.bytes

def fixedRouteTableBytes (plan : TemplatePlanLookup) (runtimeState : RuntimeStatePlanArtifact)
    (table : RouteTemplateTableArtifact) : Except TemplatePlanError Bytes := do
  let hashes ← table.entries.mapM fun entry =>
    match entry.leaf with
    | .template actor _ => silTemplateHashBytes plan.toTemplateHashLookup actor
    | .routeFamily familyId _ => .error (.runtimeStatePlanMismatch runtimeState.contract
        ("field `" ++ table.field ++ "` route table `" ++ table.id ++
          "` contains nested family `" ++ familyId ++ "`"))
  pure hashes.flatten

/-- the value of a compiler-owned runtime field, from the canonical route plan -/
def fixedRuntimeContextValue (hashes : Hashes) (plan : TemplatePlanLookup)
    (runtimeState : RuntimeStatePlanArtifact) (field : RuntimeFieldRolePlanArtifact) :
    Except TemplatePlanError Bytes :=
  let invalid := fun message : String => TemplatePlanError.runtimeStatePlanMismatch
    runtimeState.contract
    ("field `" ++ field.name ++ "` cannot be fixed as template context: " ++ message)
  match field.role with
  | .template contract => silTemplateHashBytes plan.toTemplateHashLookup contract
  | .templateTable contracts => do
    let table ← contracts.mapM (silTemplateHashBytes plan.toTemplateHashLookup)
    pure table.flatten
  | .templateDigest id => do
    let family ← okOr (plan.routeFamilies.find? fun family => family.id == id)
      (invalid ("missing route family `" ++ id ++ "`"))
    let table ← okOr (plan.routeTables.find? fun table => table.id == family.tableId)
      (invalid ("missing route table `" ++ family.tableId ++ "`"))
    let bytes ← fixedRouteTableBytes plan runtimeState table
    pure (hashes.blake3 bytes).bytes
  | .templateRoot _ => do
    let proofId := routeTemplateProofReceiptId runtimeState.source field.name
    let proof ← okOr (plan.routeProofs.find? fun proof => proof.id == proofId)
      (invalid ("missing route proof `" ++ proofId ++ "`"))
    let root ← decodeHashHex hashes proofId proof.rootHex
    pure root.bytes

/-! ## actor-type handles -/

/-- `&items[start..]` -/
def sliceFrom {α : Type} (items : List α) (start : Nat) : PlanCheck (List α) :=
  expect (if start ≤ items.length then some (items.drop start) else none)
    "slice start is out of range"

def ArtifactValue.isBytes (value : ArtifactValue) (expected : Bytes) : Bool :=
  match value with
  | .bytes found => found == expected
  | _ => false

/-- the base of the expansion that a state is declared by -/
def Artifact.expandedBase (artifact : Artifact) (state : String) : Option String :=
  (artifact.argent.stateExpansions.find? fun expansion => expansion.state == state).map (·.base)

def Artifact.actorNamed (artifact : Artifact) (name : String) : Option ActorArtifact :=
  artifact.argent.actors.find? fun actor => actor.name == name

def TemplatePlanArtifact.runtimeStatePlan (plan : TemplatePlanArtifact) (contract : String) :
    Option RuntimeStatePlanArtifact :=
  plan.runtimeStates.find? fun runtimeState => runtimeState.contract == contract

/-- the field roles of a contract, none without a runtime state plan -/
def fieldRoles (runtimePlan : Option RuntimeStatePlanArtifact) :
    List RuntimeFieldRolePlanArtifact :=
  match runtimePlan with
  | some runtimePlan => runtimePlan.fieldRoles
  | none => []

/-- the open part of the physical state has the layout of the handle's state -/
def sameOpenLayout (runtime : List RuntimeFieldArtifact) (source : List ArgentFieldArtifact) :
    Bool :=
  runtime.length == source.length &&
    (runtime.zip source).all fun pair => pair.1.name == pair.2.name && pair.1.ty == pair.2.ty

def verifyContextValue (hashes : Hashes) (plan : TemplatePlanArtifact)
    (runtimePlan : RuntimeStatePlanArtifact) (decodedContext : BTreeMap String ArtifactValue)
    (mismatch : String → TemplatePlanError) (field : RuntimeFieldRolePlanArtifact) :
    PlanCheck PUnit := do
  let expected ← orFail id (fixedRuntimeContextValue hashes plan.lookup runtimePlan field)
  rejectIf ((decodedContext.get field.name).any (·.isBytes expected) = false)
    (.error (mismatch
      ("context field `" ++ field.name ++ "` does not contain its canonical commitment")))

def verifyActorTypeHandle (crates : Crates) (plan : TemplatePlanArtifact) (artifact : Artifact)
    (template : TemplateReceiptArtifact) (contractName : String)
    (contract : SilContractArtifact) : PlanCheck PUnit := do
  let mismatch := fun message => TemplatePlanError.actorTypeHandleMismatch template.id message
  let actor ← okOr (artifact.actorNamed template.actor)
    (.error (mismatch ("missing actor `" ++ template.actor ++ "`")))
  let sourceState := (artifact.expandedBase actor.state).getD actor.state
  let handle := template.actorTypeHandle
  rejectIf (sourceState ≠ handle.state) (.error (mismatch
    ("handle state `" ++ handle.state ++ "` does not match actor `" ++ actor.name ++
      "` (base) state `" ++ sourceState ++ "`")))
  -- the leading fields are the compiler's, the state after them stays open
  let runtimePlan := plan.runtimeStatePlan contractName
  let expectedContextFields := (fieldRoles runtimePlan).map (·.name)
  rejectIf (handle.contextFields ≠ expectedContextFields) (.error (mismatch
    ("context fields " ++ debugNames handle.contextFields ++
      " do not match compiler-owned runtime fields " ++ debugNames expectedContextFields)))
  let leadingRuntimeFields := contract.runtimeState.fields.take handle.contextFields.length
  rejectIf (leadingRuntimeFields.map (·.name) ≠ handle.contextFields)
    (.error (mismatch "context fields are not the leading physical runtime fields"))
  let handleState ← okOr (artifact.argent.states.find? fun state => state.name == handle.state)
    (.error (mismatch ("missing Argent state layout `" ++ handle.state ++ "`")))
  let openRuntimeFields ← sliceFrom contract.runtimeState.fields handle.contextFields.length
  rejectIf (sameOpenLayout openRuntimeFields handleState.fields = false) (.error (mismatch
    ("runtime fields after the fixed context do not match Argent state layout `" ++
      handle.state ++ "`")))
  -- the handle extends the compiled prefix and keeps the compiled suffix
  let (silPrefix, _, silSuffix) ← okOr
    (crates.scriptParts contract.compiled contract.compiled.bytecode)
    (.error (mismatch "Sil state span is outside the compiled contract script"))
  let handlePrefix := handle.template.leading
  let handleSuffix := handle.template.trailing
  rejectIf (silPrefix.isPrefixOf handlePrefix = false)
    (.error (mismatch "prefix does not extend the Sil template prefix"))
  rejectIf (handleSuffix ≠ silSuffix)
    (.error (mismatch "suffix differs from the Sil template suffix"))
  let expectedHandleHash := crates.templateHash handlePrefix handleSuffix
  rejectIf (handle.template.hash ≠ expectedHandleHash) (.error (mismatch
    ("template hash does not match its prefix and suffix: expected `" ++
      encodeDigest crates.toHashes expectedHandleHash ++ "`, found `" ++
      encodeDigest crates.toHashes handle.template.hash ++ "`")))
  -- the bytes in between are the canonical encoding of the context
  let contextState : RuntimeStateArtifact := ⟨handle.state, leadingRuntimeFields⟩
  let contextScript ← sliceFrom handlePrefix silPrefix.length
  let decodedContext ← orFail (fun err => mismatch
      ("prefix context does not decode according to its runtime fields: " ++
        crates.codecText err))
    (crates.decodeRuntimeStateScript artifact.silAbi contextState contextScript)
  let canonicalContext ← orFail (fun err => mismatch
      ("prefix context cannot be canonically encoded: " ++ crates.codecText err))
    (crates.encodeRuntimeStateScript artifact.silAbi contextState decodedContext)
  rejectIf (canonicalContext ≠ contextScript)
    (.error (mismatch "prefix context is not canonically encoded"))
  match runtimePlan with
  | some runtimePlan =>
    runtimePlan.fieldRoles.forM
      (verifyContextValue crates.toHashes plan runtimePlan decodedContext mismatch)
  | none => pure ⟨⟩

/-! ## receipts -/

def checkTemplate (crates : Crates) (artifact : Artifact) (template : TemplateReceiptArtifact) :
    PlanCheck PUnit := do
  let contract ← okOr (artifact.silAbi.contract template.contract)
    (.error (.unknownContract template.contract))
  rejectIf (template.actor ≠ template.contract)
    (.error (.templateContractMismatch template.id template.actor template.contract))
  let expectedHash := contract.compiled.templateHash
  rejectIf (template.silTemplateHash ≠ expectedHash)
    (.error (.templateHashMismatch template.id (encodeDigest crates.toHashes expectedHash)
      (encodeDigest crates.toHashes template.silTemplateHash)))

def checkTemplateRef (templatesById : BTreeMap String TemplateReceiptArtifact)
    (templateRef : TemplateRefArtifact) : PlanCheck PUnit := do
  let template ← okOr (templatesById.get templateRef.id)
    (.error (.missingTemplateReceipt templateRef.actor templateRef.id))
  rejectIf (template.actor ≠ templateRef.actor ∨ template.symbol ≠ templateRef.symbol)
    (.error (.templateRefMismatch template.id templateRef.actor))

/-- the receipts by id; each is referenced, and matches the contract of its actor -/
def checkTemplates (crates : Crates) (plan : TemplatePlanArtifact) (artifact : Artifact) :
    PlanCheck (BTreeMap String TemplateReceiptArtifact) := do
  let templatesById ← indexUnique (·.id) (fun template => .error (.duplicateTemplateId template.id))
    (checkTemplate crates artifact) plan.templates
  artifact.argent.templates.forM (checkTemplateRef templatesById)
  let referenced := BTreeSet.ofList (artifact.argent.templates.map (·.id))
  plan.templates.forM fun template =>
    rejectIf (template.id ∉ referenced) (.error (.unreferencedTemplateReceipt template.id))
  pure templatesById

/-! ## route families -/

/-- refuses a repeated name -/
def rejectRepeated (repeated : String → TemplatePlanError)
    (check : String → PlanCheck PUnit) (names : List String) : PlanCheck (BTreeSet String) :=
  names.foldlM (fun seen name => do
    rejectIf (name ∈ seen) (.error (repeated name))
    check name
    pure (insert name seen)) ∅

def checkFamily (actorStates : BTreeMap String String) (family : RouteTemplateFamilyArtifact) :
    PlanCheck PUnit := do
  rejectIf (family.actors.length < 2) (.error (.routeFamilyTooSmall family.id))
  let familyActors ← rejectRepeated (.duplicateRouteFamilyActor family.id) (fun _ => pure ⟨⟩)
    family.actors
  rejectIf (family.representativeActor ∉ familyActors) (.error
    (.routeFamilyRepresentativeOutsideFamily family.id family.representativeActor))
  let _ ← rejectRepeated (.duplicateRouteFamilyEntryActor family.id)
    (fun actor => rejectIf (actor ∉ familyActors)
      (.error (.missingRouteFamilyEntryActor family.id actor))) family.entryActors
  family.actors.forM fun actor => do
    let foundState ← okOr (actorStates.get actor)
      (.error (.missingRouteFamilyActor family.id actor))
    rejectIf (foundState ≠ family.state)
      (.error (.routeFamilyStateMismatch family.id actor family.state foundState))

def checkFamilies (plan : TemplatePlanArtifact) (actorStates : BTreeMap String String) :
    PlanCheck (BTreeMap String RouteTemplateFamilyArtifact) :=
  indexUnique (·.id) (fun family => .error (.duplicateRouteFamilyId family.id))
    (checkFamily actorStates) plan.routeFamilies

/-! ## runtime states -/

def silFieldsByName (contract : SilContractArtifact) : BTreeMap String RuntimeFieldArtifact :=
  BTreeMap.ofList (contract.runtimeState.fields.map fun field => (field.name, field))

def checkRuntimeState (artifact : Artifact) (actorStates : BTreeMap String String)
    (runtimeState : RuntimeStatePlanArtifact) : PlanCheck PUnit := do
  let mismatch := fun message : String =>
    Fault.error (TemplatePlanError.runtimeStatePlanMismatch runtimeState.contract message)
  let contract ← okOr (artifact.silAbi.contracts.get runtimeState.contract)
    (.error (.unknownContract runtimeState.contract))
  let actorState ← okOr (actorStates.get runtimeState.contract)
    (mismatch "contract has no matching Argent actor")
  rejectIf (runtimeState.source ≠ actorState) (mismatch
    ("source `" ++ runtimeState.source ++ "` does not match actor state `" ++ actorState ++ "`"))
  let _ ← runtimeState.fieldRoles.foldlM (fun (fieldRoleNames : BTreeSet String) planField => do
    rejectIf (planField.name ∈ fieldRoleNames)
      (mismatch ("field role `" ++ planField.name ++ "` is duplicated"))
    rejectIf ((silFieldsByName contract).contains planField.name = false) (mismatch
      ("field role `" ++ planField.name ++ "` does not match any Sil ABI runtime field"))
    pure (insert planField.name fieldRoleNames)) ∅

def checkRuntimeStates (plan : TemplatePlanArtifact) (artifact : Artifact)
    (actorStates : BTreeMap String String) :
    PlanCheck (BTreeMap String RuntimeStatePlanArtifact) :=
  indexUnique (·.contract)
    (fun runtimeState => .error (.duplicateRuntimeStatePlan runtimeState.contract))
    (checkRuntimeState artifact actorStates) plan.runtimeStates

/-! ## route tables -/

def checkTableEntry (templatesById : BTreeMap String TemplateReceiptArtifact)
    (routeFamiliesById : BTreeMap String RouteTemplateFamilyArtifact)
    (routeTablesById : BTreeMap String RouteTemplateTableArtifact)
    (table : RouteTemplateTableArtifact) (item : RouteTemplateTableEntryArtifact × Nat) :
    PlanCheck PUnit := do
  let (entry, expectedIndex) := item
  let expectedOffset := expectedIndex * 32
  rejectIf (entry.index ≠ expectedIndex ∨ entry.offset ≠ expectedOffset)
    (.error (.routeTableOffsetMismatch table.id entry.index entry.offset expectedOffset))
  match entry.leaf with
  | .template actor templateId =>
    let template ← okOr (templatesById.get templateId)
      (.error (.missingRouteTableTemplate table.id actor templateId))
    rejectIf (template.actor ≠ actor)
      (.error (.routeTableTemplateMismatch table.id actor templateId template.actor))
  | .routeFamily familyId proofId =>
    let family ← okOr (routeFamiliesById.get familyId)
      (.error (.missingRouteTableFamily table.id familyId))
    let familyTable ← okOr (routeTablesById.get family.tableId)
      (.error (.missingRouteFamilyTable family.id family.tableId))
    let expectedProofId := routeTemplateProofReceiptId familyTable.state familyTable.field
    rejectIf (proofId ≠ expectedProofId)
      (.error (.routeTableFamilyProofMismatch table.id familyId proofId expectedProofId))

def checkTable (templatesById : BTreeMap String TemplateReceiptArtifact)
    (routeFamiliesById : BTreeMap String RouteTemplateFamilyArtifact)
    (routeTablesById : BTreeMap String RouteTemplateTableArtifact)
    (table : RouteTemplateTableArtifact) : PlanCheck PUnit := do
  let expectedByteLen := table.entries.length * 32
  rejectIf (table.byteLen ≠ expectedByteLen)
    (.error (.routeTableLenMismatch table.id table.byteLen expectedByteLen))
  table.entries.zipIdx.forM
    (checkTableEntry templatesById routeFamiliesById routeTablesById table)

def checkTables (plan : TemplatePlanArtifact)
    (templatesById : BTreeMap String TemplateReceiptArtifact)
    (routeFamiliesById : BTreeMap String RouteTemplateFamilyArtifact) :
    PlanCheck (BTreeMap String RouteTemplateTableArtifact) := do
  let routeTablesById ← indexUnique (·.id) (fun table => .error (.duplicateRouteTableId table.id))
    (fun _ => pure ⟨⟩) plan.routeTables
  plan.routeTables.forM (checkTable templatesById routeFamiliesById routeTablesById)
  pure routeTablesById

/-! ## the tables of runtime states -/

def runtimeLeafForRouteLeaf : RouteTemplateLeafArtifact → RuntimeRouteLeafArtifact
  | .template actor _ => .contract actor
  | .routeFamily familyId _ => .digest familyId

/-- the table of a field with these leaves and this type; its id is marked as referenced -/
def checkRoleTable (routeTablesById : BTreeMap String RouteTemplateTableArtifact)
    (runtimeState : RuntimeStatePlanArtifact) (silField : RuntimeFieldArtifact)
    (field : RuntimeFieldRolePlanArtifact) (roleLeaves : List RuntimeRouteLeafArtifact)
    (expectedFieldTy : TypeArtifact) (referenced : BTreeSet String) :
    PlanCheck (BTreeSet String) := do
  let id := routeTemplateTableReceiptId runtimeState.source field.name
  let table ← okOr (routeTablesById.get id)
    (.error (.missingRuntimeRouteTable runtimeState.contract field.name id))
  let tableLeaves := table.entries.map fun entry => runtimeLeafForRouteLeaf entry.leaf
  rejectIf (table.state ≠ runtimeState.source ∨ table.field ≠ field.name ∨
      tableLeaves ≠ roleLeaves ∨ table.byteLen ≠ roleLeaves.length * 32 ∨
      silField.ty ≠ expectedFieldTy)
    (.error (.runtimeRouteTableMismatch runtimeState.contract field.name table.id))
  pure (insert table.id referenced)

def checkFieldRole (routeFamiliesById : BTreeMap String RouteTemplateFamilyArtifact)
    (routeTablesById : BTreeMap String RouteTemplateTableArtifact)
    (runtimeState : RuntimeStatePlanArtifact) (contract : SilContractArtifact)
    (referenced : BTreeSet String) (field : RuntimeFieldRolePlanArtifact) :
    PlanCheck (BTreeSet String) := do
  let silField ← expect ((silFieldsByName contract).get field.name)
    "runtime state field role existence was checked when indexing runtime plans"
  match field.role with
  | .templateTable contracts =>
    checkRoleTable routeTablesById runtimeState silField field
      (contracts.map RuntimeRouteLeafArtifact.contract) (.fixedBytes (contracts.length * 32))
      referenced
  | .templateDigest id =>
    rejectIf (routeFamiliesById.contains id = false)
      (.error (.missingWitnessRouteFamily field.name id))
    rejectIf (silField.ty ≠ .fixedBytes 32)
      (.error (.runtimeRouteTableMismatch runtimeState.contract field.name id))
    pure referenced
  | .templateRoot leaves =>
    checkRoleTable routeTablesById runtimeState silField field leaves (.fixedBytes 32) referenced
  | .template _ =>
    rejectIf (silField.ty ≠ .fixedBytes 32)
      (.error (.runtimeStatePlanMismatch runtimeState.contract
        ("template field `" ++ field.name ++ "` must have type `byte[32]`")))
    pure referenced

def checkRuntimeTables (plan : TemplatePlanArtifact) (artifact : Artifact)
    (routeFamiliesById : BTreeMap String RouteTemplateFamilyArtifact)
    (routeTablesById : BTreeMap String RouteTemplateTableArtifact) : PlanCheck PUnit := do
  let referenced ← plan.runtimeStates.foldlM (fun referenced runtimeState => do
    let contract ← expect (artifact.silAbi.contracts.get runtimeState.contract)
      "runtime state contract existence was checked when indexing runtime plans"
    runtimeState.fieldRoles.foldlM
      (checkFieldRole routeFamiliesById routeTablesById runtimeState contract) referenced)
    (∅ : BTreeSet String)
  plan.routeTables.forM fun table =>
    rejectIf (table.id ∉ referenced) (.error (.unreferencedRouteTable table.id))

/-! ## route proofs and the tables of the families -/

def checkProofs (hashes : Hashes) (plan : TemplatePlanArtifact)
    (templatesById : BTreeMap String TemplateReceiptArtifact)
    (routeTablesById : BTreeMap String RouteTemplateTableArtifact) :
    PlanCheck (BTreeMap String RouteTemplateProofArtifact) := do
  let routeProofsById ← indexUnique (·.id) (fun proof => .error (.duplicateRouteProofId proof.id))
    (fun proof => rejectIf (routeTablesById.contains proof.tableId = false)
      (.error (.missingRouteProofTable proof.id proof.tableId))) plan.routeProofs
  plan.routeProofs.forM fun proof => do
    let table ← expect (routeTablesById.get proof.tableId)
      "route proof table existence was checked when indexing route proofs"
    orFail id (verifyRouteTemplateProof hashes proof table (indexedLookup templatesById)
      routeProofsById)
  plan.routeTables.forM fun table =>
    rejectIf (routeProofsById.contains (routeTemplateProofReceiptId table.state table.field) = false)
      (.error (.missingRouteProof table.id))
  pure routeProofsById

/-- the actors of the template leaves of a table -/
def tableActors (table : RouteTemplateTableArtifact) : List String :=
  table.entries.filterMap fun entry =>
    match entry.leaf with
    | .template actor _ => some actor
    | .routeFamily _ _ => none

def checkFamilyTable (routeTablesById : BTreeMap String RouteTemplateTableArtifact)
    (family : RouteTemplateFamilyArtifact) : PlanCheck PUnit := do
  let table ← okOr (routeTablesById.get family.tableId)
    (.error (.missingRouteFamilyTable family.id family.tableId))
  table.entries.forM fun entry =>
    match entry.leaf with
    | .routeFamily familyId _ =>
      fail (.nestedRouteFamilyLeaf family.id family.tableId familyId)
    | .template _ _ => pure ⟨⟩
  let directTemplateActors := BTreeSet.ofList family.entryActors
  let expectedTableActors := family.actors.filter fun actor => actor ∉ directTemplateActors
  let expectedTableActorSet := BTreeSet.ofList expectedTableActors
  let tableActorSet := BTreeSet.ofList (tableActors table)
  rejectIf (table.state ≠ family.state ∨
      (tableActors table).length ≠ expectedTableActorSet.card ∨
      tableActorSet ≠ expectedTableActorSet)
    (.error (.routeFamilyTableMismatch family.id family.tableId
      ("state " ++ family.state ++ " table actors " ++ debugNames expectedTableActors)))

/-! ## witness recipes -/

/-- `text.split_once("::")` -/
def splitOnce (text : String) : Option (String × String) :=
  let rec go : List Char → List Char → Option (String × String)
    | _, [] => none
    | seen, ':' :: ':' :: rest => some (String.ofList seen.reverse, String.ofList rest)
    | seen, c :: rest => go (c :: seen) rest
  go [] text.toList

theorem splitOnce_go_eq {seen rest : List Char} {before after : String}
    (h : splitOnce.go seen rest = some (before, after)) :
    seen.reverse ++ rest = before.toList ++ [':', ':'] ++ after.toList := by
  induction seen, rest using splitOnce.go.induct with
  | case1 seen => cases h
  | case2 seen rest =>
    rw [splitOnce.go, Option.some_inj, Prod.mk.injEq] at h
    rw [← h.1, ← h.2, String.toList_ofList, String.toList_ofList]
    simp
  | case3 seen c rest hne ih =>
    rw [splitOnce.go] at h
    · rw [← ih h]
      simp
    · exact hne

theorem splitOnce_eq {text before after : String} (h : splitOnce text = some (before, after)) :
    text = before ++ "::" ++ after := by
  have hlist := splitOnce_go_eq h
  rw [← String.toList_inj, String.toList_append, String.toList_append]
  exact hlist

/-- whether an app and an actor name an imported interface -/
def isImported (artifact : Artifact) (actor : String) : Bool :=
  match splitOnce actor with
  | some (app, contract) => artifact.argent.interfaces.imports.any fun interface =>
      interface.app == app && interface.actor == contract
  | none => false

def checkRecipe (artifact : Artifact) (templatesById : BTreeMap String TemplateReceiptArtifact)
    (routeFamiliesById : BTreeMap String RouteTemplateFamilyArtifact)
    (routeProofsById : BTreeMap String RouteTemplateProofArtifact)
    (recipe : WitnessRecipeArtifact) : PlanCheck PUnit := do
  match recipe.subject with
  | .actor actor =>
    match recipe.templateId with
    | some templateId =>
      let template ← okOr (templatesById.get templateId)
        (.error (.missingWitnessTemplate recipe.id templateId))
      rejectIf (actor ≠ template.actor)
        (.error (.witnessTemplateMismatch recipe.id actor template.actor))
    | none =>
      rejectIf (isImported artifact actor = false)
        (.error (.missingWitnessImportedTemplate recipe.id actor))
  | .routeFamily familyId =>
    rejectIf (routeFamiliesById.contains familyId = false)
      (.error (.missingWitnessRouteFamily recipe.id familyId))
  | _ => pure ⟨⟩
  match recipe.routeProofId with
  | some routeProofId =>
    rejectIf (routeProofsById.contains routeProofId = false)
      (.error (.missingWitnessRouteProof recipe.id routeProofId))
  | none => pure ⟨⟩

/-! ## entries -/

def checkHiddenParam (recipesById : BTreeMap String WitnessRecipeArtifact) (entryId : String)
    (param : HiddenParamArtifact) : PlanCheck PUnit := do
  let recipe ← okOr (recipesById.get param.recipeId)
    (.error (.missingHiddenParamRecipe entryId param.name param.recipeId))
  rejectIf (recipe.param ≠ param.name ∨ recipe.subject ≠ param.subject ∨
      recipe.purpose ≠ param.purpose ∨ recipe.routeProofId ≠ param.routeProofId)
    (.error (.hiddenParamRecipeMismatch entryId param.name param.recipeId))

def checkEntryWitness (recipesById : BTreeMap String WitnessRecipeArtifact) (entryId : String)
    (witness : WitnessArtifact) : PlanCheck PUnit := do
  let recipe ← okOr (recipesById.get witness.recipeId)
    (.error (.missingEntryWitnessRecipe entryId witness.param witness.recipeId))
  rejectIf (recipe.param ≠ witness.param ∨ recipe.subject ≠ witness.subject ∨
      recipe.purpose ≠ witness.purpose ∨ recipe.routeProofId ≠ witness.routeProofId)
    (.error (.entryWitnessRecipeMismatch entryId witness.param witness.recipeId))

def verifyRouteRecipeIds (entryId : String) (recipeIds : List String)
    (entryRecipeIds : BTreeSet String) (recipesById : BTreeMap String WitnessRecipeArtifact) :
    PlanCheck PUnit :=
  recipeIds.forM fun recipeId => do
    rejectIf (recipesById.contains recipeId = false)
      (.error (.missingRoutePlanRecipe entryId recipeId))
    rejectIf (recipeId ∉ entryRecipeIds) (.error (.routePlanRecipeNotExposed entryId recipeId))

def verifyRouteTemplate (entryId actor templateId : String)
    (templatesById : BTreeMap String TemplateReceiptArtifact) : PlanCheck PUnit := do
  let template ← okOr (templatesById.get templateId)
    (.error (.missingRouteTemplate entryId actor templateId))
  rejectIf (template.actor ≠ actor)
    (.error (.routeTemplateMismatch entryId actor templateId template.actor))

def checkEntry (templatesById : BTreeMap String TemplateReceiptArtifact)
    (recipesById : BTreeMap String WitnessRecipeArtifact) (actor : ActorArtifact)
    (entry : EntryArtifact) : PlanCheck PUnit := do
  let entryId := actor.name ++ "::" ++ entry.name
  let entryRecipeIds := BTreeSet.ofList (entry.hiddenParams.map (·.recipeId))
  orFail id (verifyEntrySpawns entryId entry)
  entry.hiddenParams.forM (checkHiddenParam recipesById entryId)
  entry.witnesses.forM (checkEntryWitness recipesById entryId)
  verifyRouteRecipeIds entryId entry.witnessRecipeIds entryRecipeIds recipesById
  entry.routes.forM fun route =>
    match route.successor with
    | .constructed actor templateId _ => verifyRouteTemplate entryId actor templateId templatesById
    | .exactSelf => pure ⟨⟩

/-! ## the whole check -/

def actorStates (artifact : Artifact) : BTreeMap String String :=
  BTreeMap.ofList (artifact.argent.actors.map fun actor => (actor.name, actor.state))

def TemplatePlanArtifact.checkConsistency (crates : Crates) (plan : TemplatePlanArtifact)
    (artifact : Artifact) : PlanCheck PUnit := do
  let templatesById ← checkTemplates crates plan artifact
  let routeFamiliesById ← checkFamilies plan (actorStates artifact)
  let _ ← checkRuntimeStates plan artifact (actorStates artifact)
  let routeTablesById ← checkTables plan templatesById routeFamiliesById
  checkRuntimeTables plan artifact routeFamiliesById routeTablesById
  let routeProofsById ← checkProofs crates.toHashes plan templatesById routeTablesById
  plan.routeFamilies.forM (checkFamilyTable routeTablesById)
  plan.templates.forM fun template => do
    let contract ← expect (artifact.silAbi.contracts.get template.contract)
      "template contract existence was checked when indexing template receipts"
    verifyActorTypeHandle crates plan artifact template template.contract contract
  let recipesById ← indexUnique (·.id) (fun recipe => .error (.duplicateWitnessRecipeId recipe.id))
    (checkRecipe artifact templatesById routeFamiliesById routeProofsById) plan.witnessRecipes
  artifact.argent.actors.forM fun actor =>
    actor.entries.forM (checkEntry templatesById recipesById actor)

end Argent.Artifacts
