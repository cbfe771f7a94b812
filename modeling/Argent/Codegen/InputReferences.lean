import Argent.Codegen.RangeAccess
import Argent.Codegen.StateBoundarySound
import Argent.Model.Witnesses

/-!
# The states of consumed inputs

The part of an `EntryInputPlan` (`compiler/model/inputs.rs`) that is about states, and the references
to consumed inputs that `codegen/sil/state_boundary.rs` plans from it.  The SIL types of single fields
and the digest of the payload are left out.

* `TargetPhysicalPlan.sourceFields`      the authored fields of a target in its physical layout;
* `consumedState`                which of them can be read from an authenticated input;
* `planConsumedReferences`       the planned references to the consumed inputs of an entry;
* `planConsumedReferences_reads`      **a planned field is the field of its name in the state that was
  read**.
-/

set_option linter.unusedSectionVars false

namespace Argent.Model
open Argent.Fallible

/-! ## fields -/

/-- an authored field, with its place in a physical layout -/
structure SourcePhysicalField where
  source : SourceFieldId
  physical : PhysicalFieldId
  silName : String
  identity : Bool

section
variable (model : StateModel)

/-- the place of one authored field -/
def TargetPhysicalPlan.sourceField (target : TargetPhysicalPlan) (field : SourceFieldLowering) :
    Except String SourcePhysicalField := do
  let name := s!"{model.asStr field.source.state}.{field.source.field}"
  let physical ← okOr (target.storageToPhysical.physicalField field.storage)
    s!"source field `{name}` has no physical target mapping"
  let layoutField ← okOr (target.physical.field physical)
    s!"source field `{name}` maps outside its physical target layout"
  return ⟨field.source, physical, layoutField.silName, field.expandedState.isNone⟩

/-- the authored fields, through both layout relations -/
def TargetPhysicalPlan.sourceFields (target : TargetPhysicalPlan) :
    Except String (List SourcePhysicalField) :=
  target.sourceToStorage.fields.mapM (target.sourceField model)

def ContractStateLowering.targetForActor (lowering : ContractStateLowering) (actor : StaticActorId) :
    Option TargetPhysicalPlan := do
  let id ← lowering.actorTargets actor
  lowering.targetPhysical id

/-! ## requirements -/

inductive InputFieldAvailability where
  | direct
  | checkedPreimage
  | unavailable
deriving DecidableEq, Repr

/-- what an `InputReferenceRequirement` says of the state of its input -/
structure InputStateRequirement where
  target : PhysicalTargetId
  fields : SourceFieldId → Option InputFieldAvailability
  directAuthoredState : Bool

/-- a stored state and its open state have one type -/
def sameStateType (target authored : SilStateType) : Bool :=
  decide (target = authored) || match target, authored with
  | .storagePhysical left, .targetPhysical (.openState right)
  | .targetPhysical (.openState left), .storagePhysical right => decide (left = right)
  | _, _ => false

/-- whether the state that is read is itself the authored one -/
def directAuthoredState (lowering : ContractStateLowering) (target : TargetPhysicalPlan) :
    Except String Bool := do
  let authored ← okOr (lowering.sourceRepresentations target.source)
    "input target source has no authored representation plan"
  return target.sourceToStorage.isIdentity && target.storageToPhysical.isIdentity &&
    sameStateType target.silType authored.silType

def PhysicalFieldId.isStorage : PhysicalFieldId → Bool
  | storage _ => true
  | generated _ => false

/-- the state of a consumed input; an expanded field has no value there -/
def consumedState (lowering : ContractStateLowering) (actor : ActorModel) (entry : EntryModel)
    (interaction : EntryInteraction) : Except String InputStateRequirement := do
  let targetId ← okOr interaction.target.singleStaticActor
    s!"entry `{actor.name}::{entry.name}` has a non-static consumed actor"
  let target ← okOr (lowering.targetForActor targetId)
    s!"actor `{actor.name}` has no input state target plan for `{staticActorReference targetId}`"
  let sourceFields ← target.sourceFields model
  rejectIf (sourceFields.any fun field => !field.physical.isStorage)
    "authored input fields cannot map to compiler-generated route fields"
  let directAuthoredState ← directAuthoredState lowering target
  return {
    target := target.id
    fields := tableOf (sourceFields.map fun field => (field.source,
      if field.identity then InputFieldAvailability.direct else .unavailable))
    directAuthoredState }

end

end Argent.Model

namespace Argent.Codegen
open Argent.Model Argent.Fallible

/-! ## references -/

section
-- `printed` is how the compiler prints a target in its errors
variable (model : StateModel) (lowering : ContractStateLowering) (printed : PhysicalTargetId → String)

/-- whether a field is read as it is stored -/
def isDirectField (available : InputFieldAvailability) (field : SourcePhysicalField) :
    Except String Bool :=
  match available, field.identity with
  | .direct, true => .ok true
  | .unavailable, _ => .ok false
  | .direct, false | .checkedPreimage, _ =>
    .error s!"input field `{field.source.field}` differs from its completed availability plan"

/-- an authored field of an input that is read into the variable `physicalExpr` -/
def plannedSourceField (physicalExpr : String)
    (availability : SourceFieldId → Option InputFieldAvailability) (field : SourcePhysicalField) :
    Except String PlannedSourceField := do
  let name := field.source.field
  let available ← okOr (availability field.source)
    s!"input field `{name}` has no completed availability plan"
  let direct ← isDirectField available field
  return {
    name
    astValue := if direct then
        some (.fieldAccess defaultSpan (.generated physicalExpr) field.silName)
      else none
    trustedStorage := none }

/-- the reference to an authenticated input -/
def inputReference (reference physicalExpr inputIndex : String)
    (requirement : InputStateRequirement) : Except String PlannedEntryInputReference := do
  let target ← okOr (lowering.targetPhysical requirement.target)
    "input requirement has no physical target"
  let fields ← target.sourceFields model
  let physicalSilType ← renderSilStateType model target.silType
  let representation ← okOr (lowering.sourceRepresentations target.source)
    "input target source has no authored representation plan"
  let authoredSilType ← renderSilStateType model representation.silType
  rejectIf (requirement.directAuthoredState = true ∧ physicalSilType ≠ authoredSilType)
    "direct authored input type differs from its completed model plan"
  let fields ← fields.mapM (plannedSourceField physicalExpr requirement.fields)
  return {
    reference
    source := model.asStr target.source
    target := printed target.id
    authoredSilType
    complete := if requirement.directAuthoredState then some physicalExpr else none
    fields
    inputIndex := .generated inputIndex
    payloadDigest := none }

/-- the references to the consumed inputs of an entry, in order -/
def planConsumedReferences (actor : ActorModel) (entry : EntryModel) :
    Except String (List PlannedEntryInputReference) :=
  entry.current.inputs.items.mapM fun interaction => do
    let requirement ← consumedState model lowering actor entry interaction
    inputReference model lowering printed interaction.handle
      (hiddenConsumedInputStateName interaction.handle) (hiddenInputIdxName interaction.handle)
      requirement

end

/-! ## what a reference reads -/

variable {model : StateModel} {lowering : ContractStateLowering} {printed : PhysicalTargetId → String}

theorem field_storage {storage : StorageStateLayout} {generated : List GeneratedField}
    {physical : PhysicalStateLayout} {relation : StoragePhysicalRelation}
    (h : physicalLayout storage generated = .ok (physical, relation)) {id : StorageFieldId}
    {field : LayoutField} (hfield : physical.field (.storage id) = some field) :
    field.silName = id.field := by
  obtain ⟨fields, hfields, h⟩ := bind_eq_ok.mp h
  obtain ⟨rfl, -⟩ := Prod.mk.inj (pure_eq_ok.mp h)
  have hid := of_decide_eq_true (List.find?_some
    (p := fun field : LayoutField => decide (field.id = .storage id)) hfield)
  replace hid : field.id = .storage id := hid
  obtain hmem | hmem := List.mem_append.mp (List.mem_of_find?_eq_some hfield)
  · obtain ⟨source, -, hsource⟩ := mem_of_mapM_ok hfields hmem
    obtain ⟨len, -, hsource⟩ := bind_eq_ok.mp hsource
    rw [← pure_eq_ok.mp hsource] at hid
    cases hid
  · obtain ⟨stored, -, rfl⟩ := List.mem_map.mp hmem
    rw [← PhysicalFieldId.storage.inj hid]

/-- an authored field keeps its name in the physical layout -/
theorem sourceFields_name {target : TargetPhysicalPlan} (hlaid : LaidOut model target)
    {fields : List SourcePhysicalField} (h : target.sourceFields model = .ok fields) :
    ∀ field ∈ fields, field.silName = field.source.field := by
  intro field hfield
  obtain ⟨layout, storage, generated, hlayouts, hphysical, -⟩ := hlaid
  obtain ⟨state, stored, hof⟩ := stateLayouts_ok hlayouts
  obtain ⟨lowered, hlowered, hplace⟩ := mem_of_mapM_ok h hfield
  obtain ⟨declared, -, hlowers⟩ := mem_of_forall₂_left hof.fields.flip hlowered
  obtain ⟨physical, hfound, hplace⟩ := bind_eq_ok.mp hplace
  obtain ⟨layoutField, hlayoutField, hplace⟩ := bind_eq_ok.mp hplace
  rw [okOr_eq_ok] at hfound hlayoutField
  rw [← pure_eq_ok.mp hplace]
  -- the relation maps a stored field to itself
  obtain ⟨pair, hpair, rfl⟩ := Option.map_eq_some_iff.mp hfound
  have hkey := of_decide_eq_true (List.find?_some
    (p := fun field : StorageFieldId × PhysicalFieldId => decide (field.1 = lowered.storage)) hpair)
  replace hkey : pair.1 = lowered.storage := hkey
  have hmem := List.mem_of_find?_eq_some hpair
  rw [(physicalLayout_ok hphysical).storageToPhysical] at hmem
  obtain ⟨source, -, rfl⟩ := List.mem_map.mp hmem
  show layoutField.silName = lowered.source.field
  rw [field_storage hphysical hlayoutField, hlowers.authored]
  show source.1.field = declared.name
  replace hkey : source.1 = lowered.storage := hkey
  rw [hkey, hlowers.stored]

/-- the fields of a reference are read from one variable, under their own names -/
structure ReadsFrom (stateName : String) (planned : PlannedEntryInputReference) : Prop where
  complete : ∀ name, planned.complete = some name → name = stateName
  fields : ∀ field ∈ planned.fields, ∀ value, field.astValue = some value →
    value = .fieldAccess defaultSpan (.generated stateName) field.name

theorem plannedSourceField_reads {stateName : String}
    {availability : SourceFieldId → Option InputFieldAvailability} {field : SourcePhysicalField}
    {planned : PlannedSourceField} (hname : field.silName = field.source.field)
    (h : plannedSourceField stateName availability field = .ok planned) :
    ∀ value, planned.astValue = some value →
      value = .fieldAccess defaultSpan (.generated stateName) planned.name := by
  intro value hvalue
  obtain ⟨available, -, h⟩ := bind_eq_ok.mp h
  obtain ⟨direct, -, h⟩ := bind_eq_ok.mp h
  rw [← pure_eq_ok.mp h] at hvalue ⊢
  dsimp only at hvalue ⊢
  split_ifs at hvalue
  rw [← Option.some_inj.mp hvalue, hname]

theorem inputReference_reads {reference stateName inputIndex : String}
    {requirement : InputStateRequirement} {planned : PlannedEntryInputReference}
    (hlaid : ∀ id target, lowering.targetPhysical id = some target → LaidOut model target)
    (h : inputReference model lowering printed reference stateName inputIndex requirement =
      .ok planned) : ReadsFrom stateName planned := by
  obtain ⟨target, htarget, h⟩ := bind_eq_ok.mp h
  rw [okOr_eq_ok] at htarget
  obtain ⟨sourceFields, hsource, h⟩ := bind_eq_ok.mp h
  obtain ⟨physicalSilType, -, h⟩ := bind_eq_ok.mp h
  obtain ⟨representation, -, h⟩ := bind_eq_ok.mp h
  obtain ⟨authoredSilType, -, h⟩ := bind_eq_ok.mp h
  obtain ⟨-, -, h⟩ := bind_eq_ok.mp h
  obtain ⟨fields, hfields, h⟩ := bind_eq_ok.mp h
  rw [← pure_eq_ok.mp h]
  refine ⟨fun name hname => ?_, fun field hfield => ?_⟩
  · dsimp only at hname
    split_ifs at hname
    exact (Option.some_inj.mp hname).symm
  · obtain ⟨source, hmem, hplanned⟩ := mem_of_mapM_ok hfields hfield
    exact plannedSourceField_reads (sourceFields_name (hlaid _ _ htarget) hsource source hmem) hplanned

/-- **A planned field of a consumed input is the field of its name in the state that is read.** -/
theorem planConsumedReferences_reads {app : CompiledApp} {activeActor : ActorModel}
    (hlowering : contractStateLowering model app.toApp app.plan activeActor = .ok lowering)
    {actor : ActorModel} {entry : EntryModel} {references : List PlannedEntryInputReference}
    (h : planConsumedReferences model lowering printed actor entry = .ok references) :
    List.Forall₂ (fun interaction planned =>
      ReadsFrom (hiddenConsumedInputStateName interaction.handle) planned)
        entry.current.inputs.items references := by
  refine forall₂_of_mapM h fun interaction planned _ hplanned => ?_
  obtain ⟨requirement, -, hplanned⟩ := bind_eq_ok.mp hplanned
  exact inputReference_reads (fun _ _ => contractStateLowering_laidOut hlowering) hplanned

end Argent.Codegen
