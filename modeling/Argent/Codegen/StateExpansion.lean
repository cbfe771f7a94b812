import Argent.Codegen.EntryWitnesses
import Argent.Codegen.StateValues

/-!
# State expansions

`authenticated_expansion_prelude` of `codegen/sil/state_boundary.rs`: an entry of an expanded actor
receives the payloads of its digest fields as witnesses.  It checks each payload against the digest and
unpacks its fields at constant offsets.

* `StateExpansionPlan.forActor`      the payloads of an actor, from `model/witnesses.rs`;
* `unpackField`              the field at an offset of a payload;
* `authenticatedExpansionPrelude`      the checks and the definitions.
-/

set_option linter.unusedSectionVars false

namespace Argent.Codegen
open Argent.Model Argent.Fallible

/-! ## payloads -/

/-- a payload with the identities of its field and of its memory state -/
structure StateExpansionPlan extends StateExpansionWitnessSpec where
  fieldId : SourceFieldId
  memorySource : SourceStateId
deriving DecidableEq, Repr

def hiddenStateExpansionPreimageName (spec : StateExpansionPlan) : String :=
  RESERVED_GENERATED_PREFIX ++ toSnake spec.field ++ "_" ++ toSnake spec.memoryState ++ "_preimage"

def hiddenStateExpansionFieldName (spec : StateExpansionPlan) (field : String) : String :=
  RESERVED_GENERATED_PREFIX ++ toSnake spec.field ++ "_" ++ toSnake field

/-- the width of a payload with these fields -/
def packedFieldsLen (fields : List FieldDecl) : Except String Nat :=
  fields.foldlM (fun sum field => do
    let len ← packedFieldLen field.ty
    return sum + len) 0

/-- the payload of one digest of an expanded state -/
def StateExpansionPlan.ofDigest (model : StateModel) (source : SourceStateId)
    (digest : StateDigestExpansionDecl × Nat) : Except String StateExpansionPlan := do
  let memorySource ← model.digestState source digest.2 digest.1
  let memory ← model.stateBySource memorySource
  let packedLen ← packedFieldsLen memory.fields
  return {
    state := model.asStr source
    field := digest.1.field
    memoryState := model.asStr memorySource
    fieldId := ⟨source, digest.1.field⟩
    memorySource
    packedLen }

def StateExpansionPlan.forActor (model : StateModel) (actor : DeclId) :
    Except String (List StateExpansionPlan) := do
  let source ← model.staticActorSourceState (.inApp actor)
  let state ← model.stateBySource source
  match state.expansion with
  | none => return []
  | some expansion =>
    expansion.digests.zipIdx.mapM (StateExpansionPlan.ofDigest model source)

/-! ## unpacking -/

section
variable {α : Type}

/-- the field of a type at an offset of a payload -/
def unpackField (ty : TypeRef) (packed : String) (offset stop : Nat) :
    Except String (StateExpr α) :=
  if ty.name = "byte" ∧ ty.array = none then .ok (.index (.identifier packed) (.int offset))
  else
    let slice : StateExpr α := .slice (.identifier packed) (.int offset) (.int stop)
    if ty.isActorType then .ok (.call "byte[32]" [slice])
    else
      match ty.name, ty.array with
      | "int", none => .ok (.call "OpBin2Num" [slice])
      | "temporal", none => .ok (.call "temporal" [.call "OpBin2Num" [slice]])
      | "bool", none => .ok (.ne (.call "OpBin2Num" [slice]) (.int 0))
      | "byte", some (.fixed len) => .ok (.call s!"byte[{len}]" [slice])
      | "pubkey", none | "cov_id", none => .ok (.call "byte[32]" [slice])
      | "sig", none => .ok (.call "byte[65]" [slice])
      | "datasig", none => .ok (.call "byte[64]" [slice])
      | "bytes", none | "string", none | _, some _ =>
        .error ("cannot unpack unsupported variable or array field from " ++
          s!"`{packed}.slice({offset}, {stop})`")
      | name, none =>
        .error s!"cannot unpack unsupported type `{name}` from `{packed}.slice({offset}, {stop})`"

/-- the SIL type of a local -/
def lowerPlannedType (ty : TypeRef) : TypeRef :=
  if ty.isActorType ∨ (ty.name = "cov_id" ∧ ty.array = none) then .fixedArray "byte" 32
  else ⟨ty.name, ty.array, none⟩

/-- the locals of the fields from an offset on -/
def expansionDefinitions (spec : StateExpansionPlan) (hidden : String) :
    Nat → List FieldDecl → Except String (List (PreludeStatement α))
  | _, [] => .ok []
  | offset, field :: fields => do
    let len ← packedFieldLen field.ty
    let value ← unpackField field.ty hidden offset (offset + len)
    let definitions ← expansionDefinitions spec hidden (offset + len) fields
    return .define (lowerPlannedType field.ty) (hiddenStateExpansionFieldName spec field.name)
      value :: definitions

/-- the payload is the one that the digest field commits to -/
def expansionCheck (spec : StateExpansionPlan) : PreludeStatement α :=
  .require (.eq
    (.call "blake3" [.call "byte[]" [.identifier (hiddenStateExpansionPreimageName spec)]])
    (.identifier spec.field))

variable (model : StateModel)

def expansionStatements (spec : StateExpansionPlan) :
    Except String (List (PreludeStatement α)) := do
  let memory ← model.stateBySource spec.memorySource
  let definitions ← expansionDefinitions spec (hiddenStateExpansionPreimageName spec) 0
    memory.fields
  return expansionCheck spec :: definitions

def authenticatedExpansionPrelude (actor : DeclId) : Except String (List (PreludeStatement α)) := do
  let specs ← StateExpansionPlan.forActor model actor
  let statements ← specs.mapM (expansionStatements model)
  return statements.flatten

end

end Argent.Codegen
