import Argent.Codegen.StateTypes
import Argent.Codegen.Successor
import Argent.Model.OutputTargets

/-!
# The state boundary

`codegen/sil/state_boundary.rs`: how an authored state value becomes the physical state of an output.

* `StateExpr`                 expressions over state values;
* `packedFieldAst`            the bytes of a stored field;
* `authoredStatePayloadDigestAst`      the digest of an authored state;
* `materializeAuthoredAst`    the struct literal of a physical state.
-/

set_option linter.unusedSectionVars false

namespace Argent.Codegen
open Argent.Model Argent.Sil Argent.Fallible

/-! ## expressions -/

/-- An expression over state values.  Authored expressions and those of the route planner are
leaves. -/
inductive StateExpr (α : Type) where
  | authored (value : α)
  | generated (expr : SilExpr)
  | identifier (name : String)
  | int (value : Int)
  | bytes (value : Bytes)
  | field (source : StateExpr α) (name : String)
  | index (source index : StateExpr α)
  | slice (source start stop : StateExpr α)
  | call (name : String) (args : List (StateExpr α))
  | add (left right : StateExpr α)
  | eq (left right : StateExpr α)
  | ne (left right : StateExpr α)
  | structLiteral (name : String) (fields : List (String × StateExpr α))

namespace StateExpr
variable {α : Type}

/-- the parts from left to right -/
def concat : List (StateExpr α) → StateExpr α
  | [] => .bytes []
  | part :: parts => parts.foldl .add part

end StateExpr

/-! ## packing -/

section
variable {α : Type}

def packedFieldAst (ty : TypeRef) (value : StateExpr α) : Option (StateExpr α) :=
  let cast := fun (name : String) (value : StateExpr α) => StateExpr.call name [value]
  if ty.isActorType then some (cast "byte[]" value)
  else
    match ty.name, ty.array with
    | "int", none => some (cast "__as_cast_byte[8]" value)
    | "temporal", none => some (cast "__as_cast_byte[8]" (cast "int" value))
    | "bool", none => some (cast "__as_cast_byte[1]" (cast "__as_cast_int" value))
    | "byte", none | "byte", some (.fixed _) | "pubkey", none | "sig", none | "datasig", none
    | "cov_id", none => some (cast "byte[]" value)
    | _, _ => none

variable (model : StateModel) (lowering : ContractStateLowering)

/-- the digest of an authored state; its expanded fields are digests themselves, `depth` bounds their
nesting -/
def authoredStatePayloadDigestAst : Nat → SourceStateId → StateExpr α → Option (StateExpr α)
  | 0, _, _ => none
  | depth + 1, state, value => do
    let representation ← lowering.sourceRepresentations state
    let storage ← (model.storageStateBySource state).toOption
    let parts ← representation.sourceToStorage.fields.mapM fun field => do
      let storageField ← storage.fields.find? fun candidate =>
        decide (candidate.name = field.storage.field)
      let sourceField := StateExpr.field value field.source.field
      let stored ← match field.expandedState with
        | some expanded => authoredStatePayloadDigestAst depth expanded sourceField
        | none => some sourceField
      packedFieldAst storageField.ty stored
    some (.call "blake3" [.call "byte[]" [StateExpr.concat parts]])

end

/-! ## output targets -/

/-- output layout, rendered type and compiler-owned field values, selected as one plan -/
structure OutputStateTarget where
  silType : String
  authoredSilType : String
  namedPhysicalLayout : Option PhysicalStateLayout
  physical : TargetPhysicalPlan
  generatedFieldAsts : List (GeneratedFieldId × SilExpr)

/-- a generated field with the name and the type that the layout gives it -/
def layoutGeneratedField (field : LayoutField) (id : GeneratedFieldId) : GeneratedField where
  id
  name := field.silName
  type := ⟨field.ty.name, match field.ty.array with
    | some (.fixed len) => len
    | some .dynamic | none => 0⟩

def planGeneratedFields (app : App) (plan : OutputTargetPlan) :
    Except String (List (GeneratedFieldId × SilExpr)) :=
  plan.generatedFields.mapM fun generated => do
    let field ← okOr (plan.physical.physical.field (.generated generated.1))
      "generated output field is missing from its physical layout"
    let expr ← generatedFieldExpr app (layoutGeneratedField field generated.1) generated.2
    return (generated.1, expr)

/-- the layout of a type that is named for one target -/
def namedPhysicalLayout (lowering : ContractStateLowering) (plan : OutputTargetPlan) :
    Except String (Option PhysicalStateLayout) :=
  match plan.silType with
  | .state | .source _ => .ok none
  | .storagePhysical _ | .targetPhysical _ =>
    (okOr (lowering.targetPhysical plan.canonicalTarget)
      "output type owner has no physical target layout").map fun owner => some owner.physical

def outputStateTarget (model : StateModel) (app : App) (lowering : ContractStateLowering)
    (plan : OutputTargetPlan) : Except String OutputStateTarget := do
  let representation ← okOr (lowering.sourceRepresentations plan.physical.source)
    "output target source has no authored representation plan"
  let authoredSilType ← renderSilStateType model representation.silType
  let namedPhysicalLayout ← namedPhysicalLayout lowering plan
  let generatedFieldAsts ← planGeneratedFields app plan
  let silType ← renderSilStateType model plan.silType
  return {
    silType
    authoredSilType
    namedPhysicalLayout
    physical := plan.physical
    generatedFieldAsts }

/-! ## materialization -/

section
variable {α : Type}

/-- the value of a field that has none yet -/
def insertField (fields : List (PhysicalFieldId × StateExpr α)) (id : PhysicalFieldId)
    (value : StateExpr α) : Option (List (PhysicalFieldId × StateExpr α)) :=
  if fields.any fun field => decide (field.1 = id) then none else some (fields ++ [(id, value)])

/-- the value of a field, and the fields that are left -/
def removeField (id : PhysicalFieldId) : List (PhysicalFieldId × StateExpr α) →
    Option (StateExpr α × List (PhysicalFieldId × StateExpr α))
  | [] => none
  | field :: fields =>
    if field.1 = id then some (field.2, fields)
    else do
      let (value, left) ← removeField id fields
      some (value, field :: left)

/-- the fields of a layout in order, and the values that no field takes -/
def takeFields : List LayoutField → List (PhysicalFieldId × StateExpr α) →
    Option (List (String × StateExpr α) × List (PhysicalFieldId × StateExpr α))
  | [], values => some ([], values)
  | field :: fields, values => do
    let (value, values) ← removeField field.id values
    let (taken, values) ← takeFields fields values
    some ((field.silName, value) :: taken, values)

namespace OutputStateTarget
variable (target : OutputStateTarget)

def isUnwrappedAuthoredValue : Bool :=
  target.physical.sourceToStorage.isIdentity && target.physical.storageToPhysical.isIdentity &&
    decide (target.silType = target.authoredSilType)

variable (model : StateModel) (lowering : ContractStateLowering) (depth : Nat)

/-- the stored value of an authored field -/
def storedField (authored : StateExpr α) (field : SourceFieldLowering) : Option (StateExpr α) :=
  match field.expandedState with
  | some expanded => authoredStatePayloadDigestAst model lowering depth expanded
      (.field authored field.source.field)
  | none => some (.field authored field.source.field)

def materializeAuthoredAst (authored : StateExpr α) : Option (StateExpr α) :=
  if target.isUnwrappedAuthoredValue then some authored
  else do
    let values ← target.physical.sourceToStorage.fields.foldlM (fun values field => do
      let physical ← target.physical.storageToPhysical.physicalField field.storage
      let value ← storedField model lowering depth authored field
      insertField values physical value) []
    let values ← target.generatedFieldAsts.foldlM (fun values generated =>
      insertField values (.generated generated.1) (.generated generated.2)) values
    match ← takeFields target.physical.physical.fields values with
    | (fields, []) => some (.structLiteral target.silType fields)
    | (_, _ :: _) => none

end OutputStateTarget

end

end Argent.Codegen
