import Argent.Model.Carried
import Argent.Codegen.CurrentGroup

/-!
# The template prelude of an entry

The names that an entry gives to the templates it uses: `WitnessPlan::new` up to its route tables and
imported templates, and `entry_template_prelude` of `codegen/sil/body.rs`.

* `witnessPlan`            used templates, passed route tables and imported templates;
* `entryTemplatePrelude`   imported constants, checks of the passed tables, slices of tables;
* `RealSource`             a template source that the emitted entry can use.
-/

set_option linter.unusedSectionVars false

namespace Argent.Codegen
open Argent.Model Argent.Sil Argent.Routing

/-! ## witness plans -/

/-- the linked actors of the foreign groups, in order -/
def importedTemplates (entry : EntryModel) : List LinkedActorId :=
  let linked := entry.foreign.flatMap fun group =>
    (sectionActors group.inputs ++ sectionActors group.outputs).filterMap fun target =>
      match target with
      | .inApp _ => none
      | .linked id => some (toLex (id.app, id.actor))
  (BTreeSet.ofList linked).toList.map fun id => ⟨(ofLex id).1, (ofLex id).2⟩

/-- the witnesses of an entry for in-app and linked templates -/
structure WitnessPlan where
  templates : List TemplateWitnessSpec
  /-- the passed route tables, by identity -/
  families : List RouteFamily
  importedTemplates : List LinkedActorId
deriving DecidableEq

def witnessPlan (app : App) (plan : CompilerRoutePlan) (actor : ActorModel) (entry : EntryModel) :
    Except String WitnessPlan := do
  let templates ← templateWitnesses app plan actor entry
  let opened ← openedFamilies plan actor.name (entryTemplateUses app actor.name entry)
  return {
    templates
    families := (BTreeSet.ofList (opened.map (·.id))).toList.filterMap (routeFamily plan)
    importedTemplates := importedTemplates entry }

/-- the linked actors whose templates are constants of the contract, apart from authored values -/
def contractImportedTemplates (actor : ActorModel) : List LinkedActorId :=
  actor.entries.flatMap importedTemplates

/-! ## statements -/

def hiddenImportedTemplateName (id : LinkedActorId) : String :=
  hiddenTemplateName (staticActorReference (.linked id))

def hiddenImportedTemplateConstName (id : LinkedActorId) : String :=
  hiddenImportedTemplateName id ++ "_const"

def blake3Of (value : SilExpr) : SilExpr := .call .blake3 [.call (.byteArray none) [value]]

/-- 32 bytes of a route table -/
def tableSlice (family : String) (offset : Nat) : SilExpr :=
  .call (.byteArray (some 32))
    [.slice (.identifier (hiddenRouteFamilyTableName family)) (number offset) (number (offset + 32))]

/-- the local name of a template that is a slice of a table -/
def templateDefinition (spec : TemplateWitnessSpec) : Option SilStatement :=
  match spec.source with
  | .field => none
  | .familyTable family offset =>
    some (.define (hiddenTemplateName spec.actor) (tableSlice family offset))

def entryTemplatePrelude (witnesses : WitnessPlan) : List SilStatement :=
  witnesses.importedTemplates.map (fun id =>
      .define (hiddenImportedTemplateName id) (.identifier (hiddenImportedTemplateConstName id))) ++
    witnesses.families.map (fun family =>
      comparison .eq (blake3Of (.identifier (hiddenRouteFamilyTableName family.id)))
        (.identifier (hiddenRouteFamilyCommitmentName family.id))) ++
    witnesses.templates.filterMap templateDefinition

/-! ## sources -/

/-- the table that a family commits to -/
def tableBytes (template : DeclId → Bytes) (family : RouteFamily) : Bytes :=
  family.tableActors.flatMap template

section
variable (app : App) (plan : CompilerRoutePlan) (actor : ActorModel) (entry : EntryModel)

/-- an active generated field of the actor -/
def CarriesField (field : GeneratedField) : Prop :=
  ∃ fields, generatedFieldsForActor app plan actor.name = .ok fields ∧ field ∈ fields

/-- the table is an active field, or the entry passes it -/
def TableInScope (family : RouteFamily) : Prop :=
  CarriesField app plan actor (routeTableField app family) ∨
    ∃ witnesses, witnessPlan app plan actor entry = .ok witnesses ∧ family ∈ witnesses.families

/-- a source that the emitted entry can use -/
def RealSource (spec : TemplateWitnessSpec) : Prop :=
  match spec.source with
  | .familyTable id offset => ∃ family ∈ plan.families, family.id = id ∧
    TableInScope app plan actor entry family ∧
    ∃ target, spec.id = .inApp target ∧ ∀ template : DeclId → Bytes,
      (∀ a, (template a).length = 32) →
        ((tableBytes template family).drop offset).take 32 = template target
  | .field => spec.id = .inApp actor.name ∨
    (∃ id, spec.id = .linked id ∧ id ∈ importedTemplates entry ∧
      id ∈ contractImportedTemplates actor ∧
      hiddenImportedTemplateName id = hiddenTemplateName spec.actor) ∨
    ∃ target field, spec.id = .inApp target ∧ CarriesField app plan actor field ∧
      field.id = .template target ∧ field.name = hiddenTemplateName spec.actor

/-- an output of the entry opens the family -/
def OpensFamily (family : RouteFamily) : Prop :=
  ∃ write, .inApp write ∈ (entryTemplateUses app actor.name entry).writes ∧ write ≠ actor.name ∧
    ∃ transition, routeTransition plan actor.name write = some transition ∧
      family.id ∈ transition.familiesToOpen

/-- No used template lies in the table of another family of the actor's own state, unless an output
of the entry opens that family. -/
def TablesReached : Prop :=
  let uses := entryTemplateUses app actor.name entry
  ∀ target, .inApp target ∈ uses.reads ++ uses.writes → ∀ family ∈ plan.families,
    target ∈ family.tableActors → family.state = actor.state →
      actor.name ∈ family.actors ∨ OpensFamily app plan actor entry family

end

end Argent.Codegen
