import Argent.Model.Layout
import Mathlib.Logic.Function.Basic

/-!
# State layouts

`compiler/model/layout.rs`: the authored, stored and physical fields of a state, and the physical
plans of every target that a contract can write.

* `packedFieldLen`           the width of a field type;
* `validateStateExpansion`   the checks of `compiler/model/validate.rs` on the expansion of a state;
* `stateLayouts`             the relation of source fields to storage fields;
* `physicalLayout`           the generated fields, then the stored ones;
* `contractStateLowering`    the plans of the actors, the open states and the actor domains.
-/

set_option linter.unusedSectionVars false

namespace Argent.Model
open Argent.Fallible

/-! ## declarations -/

inductive ArrayDim where
  | dynamic
  | fixed (len : Nat)
deriving DecidableEq, Repr

structure TypeRef where
  name : String
  array : Option ArrayDim
  actorState : Option String
deriving DecidableEq, Repr

namespace TypeRef

def new (name : String) : TypeRef := ⟨name, none, none⟩

def fixedArray (name : String) (len : Nat) : TypeRef := ⟨name, some (.fixed len), none⟩

def isActorType (ty : TypeRef) : Bool :=
  decide (ty.name = "actor_type" ∧ ty.array = none) && ty.actorState.isSome

def toSil (ty : TypeRef) : String :=
  if ty.isActorType then "byte[32]"
  else
    match ty.array with
    | some .dynamic => s!"{ty.name}[]"
    | some (.fixed len) => s!"{ty.name}[{len}]"
    | none => ty.name

end TypeRef

structure FieldDecl where
  ty : TypeRef
  name : String
  virtualSlot : Bool
deriving DecidableEq, Repr

structure StateDigestExpansionDecl where
  field : String
  state : String
deriving DecidableEq, Repr

structure StateExpansionDecl where
  base : String
  digests : List StateDigestExpansionDecl
deriving DecidableEq, Repr

structure StateDecl where
  name : String
  fields : List FieldDecl
  expansion : Option StateExpansionDecl
deriving DecidableEq, Repr

/-- nominal identity of a source state -/
structure SourceStateId where
  origin : String
deriving DecidableEq, Repr

/-- What the resolved program knows of its states, those of linked apps included. -/
structure StateModel where
  stateSources : List SourceStateId
  stateBySource : SourceStateId → Except String StateDecl
  listed : ∀ source state, stateBySource source = .ok state → source ∈ stateSources
  /-- the name of a state in SIL and in artifacts -/
  asStr : SourceStateId → String
  /-- the state that an expanded state expands -/
  baseState : SourceStateId → SourceStateId
  /-- the state that a digest of an expansion stands for -/
  digestState : SourceStateId → Nat → StateDigestExpansionDecl → Except String SourceStateId
  /-- the state that is the type of a field -/
  fieldState : SourceStateId → Nat → String → Except String (Option SourceStateId)
  linkedActors : List LinkedActorId
  staticActorSourceState : StaticActorId → Except String SourceStateId
  selectorSourceState : TemplateSelector → Except String SourceStateId
  /-- the states of the actor handles of an actor -/
  dynamicSourceStates : DeclId → Except String (List SourceStateId)

namespace StateModel
variable (model : StateModel)

/-- an expanded state is stored as its base -/
def storageSourceId (source : SourceStateId) : SourceStateId :=
  match model.stateBySource source with
  | .ok state => if state.expansion.isSome then model.baseState source else source
  | .error _ => source

def storageStateBySource (source : SourceStateId) : Except String StateDecl :=
  model.stateBySource (model.storageSourceId source)

end StateModel

/-! ## widths -/

/-- the packed byte width of a supported state field -/
def packedFieldLen (ty : TypeRef) : Except String Nat :=
  if ty.isActorType then .ok 32
  else
    match ty.name, ty.array with
    | "int", none | "temporal", none => .ok 8
    | "bool", none | "byte", none => .ok 1
    | "byte", some (.fixed len) => .ok len
    | "pubkey", none | "cov_id", none => .ok 32
    | "sig", none => .ok 65
    | "datasig", none => .ok 64
    | "bytes", none | "string", none | _, some _ =>
      .error "only fixed-width scalar fields are supported"
    | name, none => .error s!"unsupported type `{name}`"

/-- The width of a field of a state, where a field may itself hold a state.  `visiting` are the
states that are being measured; without fuel these are all states. -/
def packedLayoutFieldLenInner (model : StateModel) : Nat → List SourceStateId → TypeRef →
    SourceStateId → Nat → String → Except String Nat
  | fuel, visiting, ty, owner, index, field =>
    match packedFieldLen ty with
    | .ok len => .ok len
    | .error error =>
      if ty.array.isSome then .error error
      else do
        match ← model.fieldState owner index field with
        | none => .error error
        | some target =>
          if target ∈ visiting then
            .error s!"recursive state field type `{ty.name}` has no fixed packed width"
          else
            match fuel with
            | 0 => .error s!"recursive state field type `{ty.name}` has no fixed packed width"
            | fuel + 1 => do
              let state ← model.storageStateBySource target
              state.fields.zipIdx.foldlM (fun sum field => do
                let len ← packedLayoutFieldLenInner model fuel (target :: visiting) field.1.ty
                  (model.storageSourceId target) field.2 field.1.name
                if sum + len < 2 ^ 64 then return sum + len
                else .error s!"state `{ty.name}` packed width overflows") 0

def packedLayoutFieldLen (model : StateModel) (ty : TypeRef) (owner : SourceStateId) (index : Nat)
    (field : String) : Except String Nat :=
  packedLayoutFieldLenInner model model.stateSources.length [] ty owner index field

/-- the SIL spelling used by layout compatibility checks -/
def lowerLayoutType (ty : TypeRef) : String :=
  if ty.name = "cov_id" ∧ ty.array = none then "byte[32]" else ty.toSil

/-! ## expansions -/

/-- a virtual slot is a digest -/
def isDigestSlot (ty : TypeRef) : Bool :=
  decide (ty.name = "byte" ∧ ty.array = some (.fixed 32) ∧ ty.actorState = none)

/-- one digest of an expansion: `seen` are the ones before it -/
def validateDigest (model : StateModel) (source : SourceStateId) (state base : StateDecl)
    (expansion : StateExpansionDecl) (seen : List StateDigestExpansionDecl)
    (index : Nat) (digest : StateDigestExpansionDecl) : Except String PUnit.{1} := do
  rejectIf (seen.any fun other => decide (other.field = digest.field))
    s!"state `{state.name}` binds virtual slot `{digest.field}` more than once"
  let field ← okOr (base.fields.find? fun field => decide (field.name = digest.field))
    (s!"state `{state.name}` expands `{expansion.base}` field `{digest.field}`, but " ++
      s!"`{expansion.base}` has no such field")
  rejectIf (!field.virtualSlot || !isDigestSlot field.ty)
    (s!"state `{state.name}` binds `{expansion.base}` slot `{digest.field}`, but expanded slots " ++
      "must be virtual")
  let memory ← (model.digestState source index digest >>= model.stateBySource).mapError fun _ =>
    s!"state `{state.name}` expands `{expansion.base}` field `{digest.field}` as unknown memory " ++
      s!"state `{digest.state}`"
  rejectIf memory.fields.isEmpty
    (s!"state `{state.name}` expands `{expansion.base}` field `{digest.field}` as " ++
      s!"`{digest.state}`, but memory states must have at least one field")
  memory.fields.forM fun memoryField =>
    match packedFieldLen memoryField.ty with
    | .ok _ => .ok ⟨⟩
    | .error error => .error (s!"state `{state.name}` slot `{digest.field}` as `{digest.state}` " ++
        s!"field `{memoryField.name}` cannot be packed: {error}")

/-- the virtual slots and the expansion of one state -/
def validateStateExpansion (model : StateModel) (source : SourceStateId) :
    Except String PUnit.{1} := do
  let state ← model.stateBySource source
  state.fields.forM fun field =>
    rejectIf (field.virtualSlot && !isDigestSlot field.ty)
      (s!"state `{state.name}` field `{field.name}` is virtual, but virtual slots must be " ++
        "byte[32]")
  match state.expansion with
  | none => return ⟨⟩
  | some expansion => do
    rejectIf (!state.fields.isEmpty)
      s!"state `{state.name}` expands `{expansion.base}` and cannot declare ordinary fields"
    rejectIf expansion.digests.isEmpty
      s!"state `{state.name}` expands `{expansion.base}` but declares no digest expansions"
    let base ← (model.storageStateBySource source).mapError fun _ =>
      s!"state `{state.name}` expands unknown base state `{expansion.base}`"
    rejectIf base.expansion.isSome
      (s!"state `{state.name}` expands `{expansion.base}`, but expanded states cannot currently " ++
        "be used as bases")
    expansion.digests.zipIdx.forM fun digest =>
      validateDigest model source state base expansion (expansion.digests.take digest.2) digest.2
        digest.1

/-! ## fields -/

structure SourceFieldId where
  state : SourceStateId
  field : String
deriving DecidableEq, Repr

/-- a field of a storage payload declaration -/
structure StorageFieldId where
  state : SourceStateId
  field : String
deriving DecidableEq, Repr

inductive PhysicalFieldId where
  | generated (id : GeneratedFieldId)
  | storage (id : StorageFieldId)
deriving DecidableEq, Repr

structure LayoutField where
  id : PhysicalFieldId
  silName : String
  ty : TypeRef
  silType : String
  packedLen : Nat
deriving DecidableEq, Repr

structure PhysicalStateLayout where
  fields : List LayoutField
deriving DecidableEq, Repr

namespace PhysicalStateLayout
variable (layout : PhysicalStateLayout)

def field (id : PhysicalFieldId) : Option LayoutField :=
  layout.fields.find? fun field => decide (field.id = id)

/-- the same meaning and SIL encoding, field by field -/
def isSilCompatibleWith (other : PhysicalStateLayout) : Bool :=
  decide (layout.fields.map (fun field => (field.id, field.silType, field.packedLen)) =
    other.fields.map fun field => (field.id, field.silType, field.packedLen))

end PhysicalStateLayout

structure SourceStateLayout where
  id : SourceStateId
  fields : List (SourceFieldId × TypeRef)
deriving DecidableEq, Repr

structure StorageStateLayout where
  id : SourceStateId
  fields : List (StorageFieldId × TypeRef × Nat)
deriving DecidableEq, Repr

/-! ## relations -/

inductive SourceFieldLowering where
  | identity (source : SourceFieldId) (storage : StorageFieldId)
  | digest (source : SourceFieldId) (storage : StorageFieldId) (expandedState : SourceStateId)
deriving DecidableEq, Repr

namespace SourceFieldLowering

def source : SourceFieldLowering → SourceFieldId
  | identity source _ | digest source _ _ => source

def storage : SourceFieldLowering → StorageFieldId
  | identity _ storage | digest _ storage _ => storage

def expandedState : SourceFieldLowering → Option SourceStateId
  | identity _ _ => none
  | digest _ _ expandedState => some expandedState

end SourceFieldLowering

inductive SourceStorageRelation where
  | identity (fields : List SourceFieldLowering)
  | expanded (fields : List SourceFieldLowering)
deriving DecidableEq, Repr

namespace SourceStorageRelation

def isIdentity : SourceStorageRelation → Bool
  | identity _ => true
  | expanded _ => false

def fields : SourceStorageRelation → List SourceFieldLowering
  | identity fields | expanded fields => fields

end SourceStorageRelation

inductive StoragePhysicalRelation where
  | identity (storageToPhysical : List (StorageFieldId × PhysicalFieldId))
  | augmented (generatedFields : List GeneratedFieldId)
    (storageToPhysical : List (StorageFieldId × PhysicalFieldId))
deriving DecidableEq, Repr

namespace StoragePhysicalRelation

def isIdentity : StoragePhysicalRelation → Bool
  | identity _ => true
  | augmented _ _ => false

def generatedFields : StoragePhysicalRelation → List GeneratedFieldId
  | identity _ => []
  | augmented generatedFields _ => generatedFields

def storageToPhysical : StoragePhysicalRelation → List (StorageFieldId × PhysicalFieldId)
  | identity storageToPhysical | augmented _ storageToPhysical => storageToPhysical

def physicalField (relation : StoragePhysicalRelation) (storage : StorageFieldId) :
    Option PhysicalFieldId :=
  (relation.storageToPhysical.find? fun field => decide (field.1 = storage)).map Prod.snd

end StoragePhysicalRelation

/-! ## plans -/

/-- a concrete actor, an open state or the variants of a selector -/
inductive PhysicalTargetId where
  | actor (actor : StaticActorId)
  | openState (state : SourceStateId)
  | actorDomain (state : SourceStateId) (actors : List StaticActorId)
deriving DecidableEq, Repr

inductive SilStateType where
  | state
  | source (source : SourceStateId)
  | storagePhysical (source : SourceStateId)
  | targetPhysical (target : PhysicalTargetId)
deriving DecidableEq, Repr

structure SourceRepresentationPlan where
  source : SourceStateId
  sourceToStorage : SourceStorageRelation
  silType : SilStateType
deriving DecidableEq, Repr

structure TargetPhysicalPlan where
  id : PhysicalTargetId
  source : SourceStateId
  sourceToStorage : SourceStorageRelation
  storageToPhysical : StoragePhysicalRelation
  physical : PhysicalStateLayout
  silType : SilStateType
  activeCompatible : Bool
deriving DecidableEq, Repr

/-- the SIL type of an output, and the target that owns it -/
structure OutputPhysicalTypePlan where
  target : PhysicalTargetId
  canonicalTarget : PhysicalTargetId
  silType : SilStateType
deriving DecidableEq, Repr

structure ContractStateLayout where
  actor : DeclId
  source : SourceStateLayout
  storage : StorageStateLayout
  physical : PhysicalStateLayout
  sourceToStorage : SourceStorageRelation
  storageToPhysical : StoragePhysicalRelation
deriving DecidableEq, Repr

/-- the state lowering of one contract; its tables are read by key -/
structure ContractStateLowering where
  active : ContractStateLayout
  sourceRepresentations : SourceStateId → Option SourceRepresentationPlan
  targetPhysical : PhysicalTargetId → Option TargetPhysicalPlan
  outputPhysicalTypes : PhysicalTargetId → Option OutputPhysicalTypePlan
  actorTargets : StaticActorId → Option PhysicalTargetId

/-- a table with the pairs of a list, the last one of each key -/
def tableOf {α β : Type} [DecidableEq α] (pairs : List (α × β)) : α → Option β :=
  pairs.foldl (fun table pair => Function.update table pair.1 (some pair.2)) fun _ => none

namespace ContractStateLowering
variable (lowering : ContractStateLowering)

def outputTypeForActor (actor : StaticActorId) : Option OutputPhysicalTypePlan := do
  let id ← lowering.actorTargets actor
  lowering.outputPhysicalTypes id

def outputTypeForOpenState (state : SourceStateId) : Option OutputPhysicalTypePlan :=
  lowering.outputPhysicalTypes (.openState state)

def outputTypeForActorDomain (state : SourceStateId) (actors : List StaticActorId) :
    Option OutputPhysicalTypePlan := do
  let actors ← actors.mapM fun actor => do
    match ← lowering.actorTargets actor with
    | .actor actor => some actor
    | .openState _ | .actorDomain _ _ => none
  lowering.outputPhysicalTypes (.actorDomain state actors)

end ContractStateLowering

/-! ## layouts -/

/-- the digest of a field in the expansion of a state, the last one with its name -/
def digestOf (state : StateDecl) (field : FieldDecl) : Option (StateDigestExpansionDecl × Nat) :=
  (state.expansion.elim [] (·.digests)).zipIdx.reverse.find? fun digest =>
    decide (digest.1.field = field.name)

/-- the relation of one authored field to the stored one -/
def lowerStateField (model : StateModel) (source : SourceStateId) (state : StateDecl)
    (field : FieldDecl) : Except String SourceFieldLowering :=
  let storage : StorageFieldId := ⟨model.storageSourceId source, field.name⟩
  match digestOf state field with
  | some digest => do
    let expanded ← model.digestState source digest.2 digest.1
    return .digest ⟨source, field.name⟩ storage expanded
  | none => .ok (.identity ⟨source, field.name⟩ storage)

/-- a stored field with its width -/
def storageField (model : StateModel) (storage : SourceStateId) (field : FieldDecl × Nat) :
    Except String (StorageFieldId × TypeRef × Nat) := do
  let len ← packedLayoutFieldLen model field.1.ty storage field.2 field.1.name
  return (⟨storage, field.1.name⟩, field.1.ty, len)

/-- the fields of a state, with the relation of the authored ones to the stored ones -/
def stateLayouts (model : StateModel) (source : SourceStateId) :
    Except String (SourceStateLayout × StorageStateLayout × SourceStorageRelation) := do
  let state ← model.stateBySource source
  let stored ← model.storageStateBySource source
  let storageFields ← stored.fields.zipIdx.mapM (storageField model (model.storageSourceId source))
  let fields ← stored.fields.mapM (lowerStateField model source state)
  let relation := if state.expansion.isSome then SourceStorageRelation.expanded fields
    else .identity fields
  let sourceFields := stored.fields.map fun field =>
    ((⟨source, field.name⟩ : SourceFieldId),
      (digestOf state field).elim field.ty fun digest => TypeRef.new digest.1.state)
  return (⟨source, sourceFields⟩, ⟨model.storageSourceId source, storageFields⟩, relation)

def generatedLayoutField (field : GeneratedField) : Except String LayoutField := do
  let ty := TypeRef.fixedArray field.type.element field.type.length
  let packedLen ← packedFieldLen ty
  return ⟨.generated field.id, field.name, ty, lowerLayoutType ty, packedLen⟩

def physicalLayout (storage : StorageStateLayout) (generated : List GeneratedField) :
    Except String (PhysicalStateLayout × StoragePhysicalRelation) := do
  let fields ← generated.mapM generatedLayoutField
  let stored := storage.fields.map fun field =>
    (⟨.storage field.1, field.1.field, field.2.1, lowerLayoutType field.2.1, field.2.2⟩ : LayoutField)
  let storageToPhysical := storage.fields.map fun field => (field.1, PhysicalFieldId.storage field.1)
  let relation := if generated.isEmpty then StoragePhysicalRelation.identity storageToPhysical
    else .augmented (generated.map (·.id)) storageToPhysical
  return (⟨fields ++ stored⟩, relation)

def conservativeNamedType (id : PhysicalTargetId) (source : SourceStateId)
    (sourceToStorage : SourceStorageRelation) (storageToPhysical : StoragePhysicalRelation) :
    SilStateType :=
  if ¬ storageToPhysical.isIdentity then .targetPhysical id
  else if ¬ sourceToStorage.isIdentity then .storagePhysical source
  else .source source

section
variable (model : StateModel) (app : App) (plan : CompilerRoutePlan)

def actorPhysicalLayout (actor : DeclId) (storage : StorageStateLayout) :
    Except String (PhysicalStateLayout × StoragePhysicalRelation) := do
  let generated ← generatedFieldsForActor app plan actor
  physicalLayout storage generated

def concreteTargetPlan (actor : StaticActorId) (activeActor : DeclId)
    (activePhysical : PhysicalStateLayout) : Except String TargetPhysicalPlan := do
  let source ← model.staticActorSourceState actor
  let (_, storage, sourceToStorage) ← stateLayouts model source
  let (physical, storageToPhysical) ← match actor with
    | .inApp id => actorPhysicalLayout app plan id storage
    | .linked _ => physicalLayout storage []
  return {
    id := .actor actor
    source
    sourceToStorage
    storageToPhysical
    physical
    silType := if actor = .inApp activeActor then .state
      else conservativeNamedType (.actor actor) source sourceToStorage storageToPhysical
    activeCompatible := physical.isSilCompatibleWith activePhysical }

def openStateTargetPlan (source : SourceStateId) (activePhysical : PhysicalStateLayout) :
    Except String TargetPhysicalPlan := do
  let (_, storage, sourceToStorage) ← stateLayouts model source
  let (physical, storageToPhysical) ← physicalLayout storage []
  return {
    id := .openState source
    source
    sourceToStorage
    storageToPhysical
    physical
    silType := conservativeNamedType (.openState source) source sourceToStorage storageToPhysical
    activeCompatible := physical.isSilCompatibleWith activePhysical }

/-- the plan of the variants of a selector, with the physical layout of the first one -/
def canonicalDomainPlan (id : PhysicalTargetId) (variants : List PhysicalTargetId)
    (activePhysical : PhysicalStateLayout) (plans : PhysicalTargetId → Option TargetPhysicalPlan) :
    Except String (TargetPhysicalPlan × PhysicalTargetId) :=
  match variants with
  | [] => .error "actor domain has no variants"
  | firstId :: rest => do
    let first ← okOr (plans firstId) "actor domain variant has no physical plan"
    rest.forM fun variant => do
      let candidate ← okOr (plans variant) "actor domain variant has no physical plan"
      rejectIf (decide (candidate.source ≠ first.source))
        s!"source state `{model.asStr candidate.source}` differs from `{model.asStr first.source}`"
      rejectIf (!candidate.physical.isSilCompatibleWith first.physical)
        "variants do not share one semantic physical layout"
    return ({ first with
      id
      silType := conservativeNamedType id first.source first.sourceToStorage first.storageToPhysical
      activeCompatible := first.physical.isSilCompatibleWith activePhysical }, firstId)

/-- the actors of the app, then the linked ones -/
def staticActorIds : List StaticActorId :=
  app.actors.map (fun actor => .inApp actor.name) ++ model.linkedActors.map .linked

/-- the plans so far, and the canonical targets of the domains among them -/
structure DomainTables where
  plans : PhysicalTargetId → Option TargetPhysicalPlan
  canonical : PhysicalTargetId → Option PhysicalTargetId

/-- the plan of the domain of one selector -/
def planDomain (actor : ActorModel) (entry : EntryModel) (activePhysical : PhysicalStateLayout)
    (actorTargets : StaticActorId → Option PhysicalTargetId) (tables : DomainTables)
    (selector : TemplateSelector) : Except String DomainTables := do
  let variants ← selector.targets.mapM fun variant =>
    okOr (actorTargets variant) "selector target has no physical state plan"
  let state ← model.selectorSourceState selector
  let actors ← variants.mapM fun variant => match variant with
    | .actor actor => .ok actor
    | .openState _ | .actorDomain _ _ => .error "actor domain contains a non-actor target"
  let id := PhysicalTargetId.actorDomain state actors
  if (tables.plans id).isSome then return tables
  else
    match canonicalDomainPlan model id variants activePhysical tables.plans with
    | .error error => .error (s!"entry `{actor.name}::{entry.name}` actor selector " ++
        s!"`{selector.name}` has incompatible target layouts: {error}")
    | .ok (target, canonicalTarget) => return {
        plans := Function.update tables.plans id (some target)
        canonical := Function.update tables.canonical id (some canonicalTarget) }

/-- The output type of a target.  The canonical target of a domain has a plan: it was read when the
domain was planned. -/
def outputPhysicalType (tables : DomainTables) (id : PhysicalTargetId) :
    Option OutputPhysicalTypePlan := do
  let target ← tables.plans id
  let canonicalTarget := (tables.canonical id).getD id
  if target.activeCompatible then some ⟨id, canonicalTarget, .state⟩
  else do
    let canonical ← tables.plans canonicalTarget
    some ⟨id, canonicalTarget, canonical.silType⟩

def contractStateLowering (activeActor : ActorModel) : Except String ContractStateLowering := do
  let activeSource ← model.staticActorSourceState (.inApp activeActor.name)
  let (source, storage, sourceToStorage) ← stateLayouts model activeSource
  let (physical, storageToPhysical) ← actorPhysicalLayout app plan activeActor.name storage
  let representations ← model.stateSources.mapM fun source => do
    let (_, _, sourceToStorage) ← stateLayouts model source
    let silType := if source = activeSource ∧ sourceToStorage.isIdentity ∧
        storageToPhysical.isIdentity then SilStateType.state else .source source
    return (source, (⟨source, sourceToStorage, silType⟩ : SourceRepresentationPlan))
  let actors ← (staticActorIds model app).mapM fun id =>
    concreteTargetPlan model app plan id activeActor.name physical
  let states ← model.dynamicSourceStates activeActor.name
  let openStates ← states.mapM fun source => openStateTargetPlan model source physical
  let actorTargets := tableOf ((staticActorIds model app).map fun id => (id, .actor id))
  let plans := tableOf ((actors ++ openStates).map fun target => (target.id, target))
  let selectors := activeActor.entries.flatMap fun entry =>
    entry.templateSelectors.map fun selector => (entry, selector)
  let tables ← selectors.foldlM (fun tables selector =>
    planDomain model activeActor selector.1 physical actorTargets tables selector.2)
    ⟨plans, fun _ => none⟩
  return {
    active := ⟨activeActor.name, source, storage, physical, sourceToStorage, storageToPhysical⟩
    sourceRepresentations := tableOf representations
    targetPhysical := tables.plans
    outputPhysicalTypes := outputPhysicalType tables
    actorTargets }

end

end Argent.Model
