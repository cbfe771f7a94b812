import Argent.Codegen.Templates
import Argent.Model.Outputs

/-!
# Generated fields of a successor

`plan_generated_fields` of `codegen/sil/state_boundary.rs`: the expressions that give the generated
fields of a successor's state their values.

* `generatedFieldExpr`       the expression of one field;
* `scopeNames`               the template names that the emitted entry knows;
* `canonicalCommitment`      what a generated field has to hold;
* `SuccessorDefined`         every generated field has one source, in scope and canonical.
-/

set_option linter.unusedSectionVars false

namespace Argent.Codegen
open Argent.Model Argent.Sil Argent.Routing

/-! ## expressions -/

/-- the parts from left to right -/
def concat : List SilExpr → SilExpr
  | [] => .bytes []
  | part :: parts => parts.foldl (.binary .add) part

def templateIdentifiers (app : App) (actors : List DeclId) (message : String) :
    Except String (List SilExpr) :=
  actors.mapM fun actor => match app.actor? actor with
    | none => .error message
    | some model => .ok (.identifier (hiddenTemplateName model.name))

def generatedFieldExpr (app : App) (field : GeneratedField) :
    GeneratedFieldSource → Except String SilExpr
  | .carried | .templateField => .ok (.identifier field.name)
  | .tableFromTemplates actors => do
    let parts ← templateIdentifiers app actors
      "output route table references an unknown selected actor"
    return .call (.byteArray (some field.type.length)) [concat parts]
  | .digestFromTable family => .ok (blake3Of (.identifier (hiddenRouteFamilyTableName family)))
  | .digestFromTemplates actors => do
    let parts ← templateIdentifiers app actors "output digest references an unknown selected actor"
    return blake3Of (concat parts)

/-! ## scope -/

/-- the active fields and the passed tables, by name -/
def passedNames (active : List GeneratedField) (witnesses : WitnessPlan) : List String :=
  active.map (·.name) ++
    witnesses.families.map fun family => hiddenRouteFamilyTableName family.id

/-- the local names of the slices of known tables -/
def templateLocals (known : List String) (witnesses : WitnessPlan) : List String :=
  witnesses.templates.filterMap fun spec => match spec.source with
    | .field => none
    | .familyTable family _ =>
      if hiddenRouteFamilyTableName family ∈ known then some (hiddenTemplateName spec.actor)
      else none

/-- the active fields, the passed tables and the templates sliced from them, by name -/
def scopeNames (active : List GeneratedField) (witnesses : WitnessPlan) : List String :=
  passedNames active witnesses ++ templateLocals (passedNames active witnesses) witnesses

/-! ## values -/

/-- what a generated field has to hold -/
def canonicalCommitment (plan : CompilerRoutePlan) (blake3 : Bytes → Bytes)
    (template : DeclId → Bytes) : GeneratedFieldId → Bytes
  | .template actor => template actor
  | .routeFamilyDigest _ id => match routeFamily plan id with
    | some family => blake3 (tableBytes template family)
    | none => []
  | .routeFamilyTable _ _ actors => actors.flatMap template

/-- the generated fields of the active state hold their commitments -/
def CanonicalState (plan : CompilerRoutePlan) (blake3 : Bytes → Bytes) (template : DeclId → Bytes)
    (active : List GeneratedField) (env : Env) : Prop :=
  ∀ field ∈ active,
    env.lookup field.name = some (.bytes (canonicalCommitment plan blake3 template field.id))

/-- The source of the field has an expression whose names are in scope.  When the active state is
canonical, the prelude succeeds on the passed tables and the hash has no collision, the value of the
expression is the commitment of the field. -/
def FieldDefined (app : App) (plan : CompilerRoutePlan) (active : List GeneratedField)
    (witnesses : WitnessPlan) (field : GeneratedField) (source : GeneratedFieldSource) : Prop :=
  ∃ expr, generatedFieldExpr app field source = .ok expr ∧
    (∀ name ∈ expr.identifiers, name ∈ scopeNames active witnesses) ∧
    ∀ (ctx : ScriptContext) (template : DeclId → Bytes) (start frame : Frame),
      (∀ a b, ctx.hashes.blake3 a = ctx.hashes.blake3 b → a = b) →
      (∀ a, (template a).length = 32) →
      CanonicalState plan ctx.hashes.blake3 template active start.env →
      execAll ctx (entryTemplatePrelude witnesses) start = some frame →
        expr.eval ctx frame.env =
          some (.bytes (canonicalCommitment plan ctx.hashes.blake3 template field.id))

section
variable (app : App) (plan : CompilerRoutePlan) (actor : ActorModel) (entry : EntryModel)

/-- every generated field of the successor has one source, in scope and canonical -/
structure SuccessorDefined (witnesses : WitnessPlan) (targets : List StaticActorId)
    (sources : List (GeneratedField × GeneratedFieldSource)) : Prop where
  layout : ∀ target, .inApp target ∈ targets →
    generatedFieldsForActor app plan target = .ok (sources.map Prod.fst)
  unique : (sources.map (·.1.id)).Nodup
  defined : ∀ active, generatedFieldsForActor app plan actor.name = .ok active →
    ∀ source ∈ sources, FieldDefined app plan active witnesses source.1 source.2

/-- the actor has a generated field for the template -/
def CarriesTemplate (source target : DeclId) : Prop :=
  ∃ fields field, generatedFieldsForActor app plan source = .ok fields ∧ field ∈ fields ∧
    field.id = .template target

/-- the entry reads or writes the template, and no table that it does not know contains it -/
def UsesTemplate (leaf : DeclId) : Prop :=
  let uses := entryTemplateUses app actor.name entry
  .inApp leaf ∈ uses.reads ++ uses.writes ∧ ∀ family ∈ plan.families, leaf ∈ family.tableActors →
    family.state = actor.state → actor.name ∈ family.actors ∨ OpensFamily app plan actor entry family

/-- The templates that the successor holds one by one are held one by one by the actor, or the entry
uses them. -/
def TemplatesAvailable (targets : List StaticActorId) : Prop :=
  ∀ target, .inApp target ∈ targets → ∀ leaf, CarriesTemplate app plan target leaf →
    CarriesTemplate app plan actor.name leaf ∨ UsesTemplate app plan actor entry leaf

end

end Argent.Codegen
