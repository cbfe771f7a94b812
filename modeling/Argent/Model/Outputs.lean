import Argent.Model.Validate
import Argent.Model.Witnesses

/-!
# Output plans

`ActorOutputPlan` of `compiler/model/outputs.rs`: where the generated fields of a successor's state
come from.

* `GeneratedFieldSource`     how a generated field of the target gets its value;
* `targetPlan`               the sources of all generated fields of one layout;
* `successorTargetPlan`      the layout and the sources of a constructed successor.
-/

set_option linter.unusedSectionVars false

namespace Argent.Model
open Argent.Routing

/-- the source of one generated output field -/
inductive GeneratedFieldSource where
  /-- the active field, or the passed table, of the same name -/
  | carried
  | templateField
  | tableFromTemplates (actors : List DeclId)
  | digestFromTable (family : String)
  | digestFromTemplates (actors : List DeclId)
deriving DecidableEq, Repr

/-- the transition of an output from `source` to `target`; a self-output changes nothing -/
def outputTransition (plan : CompilerRoutePlan) (source target : DeclId) :
    Except String CompilerRouteTransition :=
  if target = source then .ok ⟨[], []⟩
  else
    match routeTransition plan source target with
    | none => .error s!"entry model has no route transition from `{source}` to in-app target `{target}`"
    | some transition => .ok transition

section
variable (app : App) (plan : CompilerRoutePlan) (source : DeclId)

/-- the source of one field, and the families that are left to pack -/
def generatedFieldSource (sourceGenerated : List GeneratedFieldId) (familiesToPack : List String)
    (id : GeneratedFieldId) : Except String (GeneratedFieldSource × List String) :=
  match id with
  | .template _ => .ok (.templateField, familiesToPack)
  | .routeFamilyTable _ family actors =>
    if id ∉ sourceGenerated ∧ ∀ actor ∈ actors, .template actor ∈ sourceGenerated then
      match routeFamily plan family with
      | none => .error s!"output route table references unknown route family `{family}`"
      | some routeFamily =>
        if routeFamily.tableActors ≠ actors then
          .error "output route table differs from its bound actor order"
        else .ok (.tableFromTemplates routeFamily.tableActors, familiesToPack)
    else .ok (.carried, familiesToPack)
  | .routeFamilyDigest _ family =>
    if family ∈ familiesToPack then
      match routeFamily plan family with
      | none => .error s!"output transition references unknown route family `{family}`"
      | some routeFamily =>
        if (routeFamilyForActor plan source).any fun own => decide (own.id = routeFamily.id) then
          .ok (.digestFromTable routeFamily.id, familiesToPack.erase family)
        else .ok (.digestFromTemplates routeFamily.tableActors, familiesToPack.erase family)
    else .ok (.carried, familiesToPack)

/-- the sources of the fields in order, and the families that no field packs -/
def generatedFieldSources (sourceGenerated : List GeneratedFieldId) :
    List String → List GeneratedField →
      Except String (List (GeneratedField × GeneratedFieldSource) × List String)
  | familiesToPack, [] => .ok ([], familiesToPack)
  | familiesToPack, field :: fields => do
    let (fieldSource, familiesToPack) ←
      generatedFieldSource plan source sourceGenerated familiesToPack field.id
    let (sources, familiesToPack) ← generatedFieldSources sourceGenerated familiesToPack fields
    return ((field, fieldSource) :: sources, familiesToPack)

/-- the sources of the generated fields of a layout -/
def targetPlan (layout : List GeneratedField) (transition : CompilerRouteTransition) :
    Except String (List (GeneratedField × GeneratedFieldSource)) := do
  let active ← generatedFieldsForActor app plan source
  let (sources, left) ← generatedFieldSources plan source (active.map (·.id))
    transition.familiesToPack layout
  match left with
  | family :: _ =>
    .error s!"output transition packs route family `{family}` without a generated target field"
  | [] => return sources

def actorTargetPlan (target : DeclId) :
    Except String (List (GeneratedField × GeneratedFieldSource)) := do
  let layout ← generatedFieldsForActor app plan target
  let transition ← outputTransition plan source target
  targetPlan app plan source layout transition

/-- The variants of a selector share one layout and one transition.  Only the generated part of the
layout is compared here. -/
def selectorTargetPlan (selector : TemplateSelector) :
    Except String (List (GeneratedField × GeneratedFieldSource)) := do
  let variants ← selector.targets.mapM fun target => match target with
    | .inApp id => .ok id
    | .linked _ => .error s!"actor selector `{selector.name}` targets an actor outside the selected app"
  match variants with
  | [] => .error s!"actor selector `{selector.name}` has no variants"
  | first :: rest =>
    let layout ← generatedFieldsForActor app plan first
    let transition ← outputTransition plan source first
    rest.forM fun variant => do
      let other ← generatedFieldsForActor app plan variant
      if other ≠ layout then .error "variants do not share one semantic physical layout" else .ok ()
      let other ← outputTransition plan source variant
      if other ≠ transition then
        .error s!"actor selector `{selector.name}` variants do not share one route transition"
      else .ok ()
    targetPlan app plan source layout transition

end

/-- the sources of the generated fields of a constructed successor -/
def successorTargetPlan (app : App) (plan : CompilerRoutePlan) (actor : ActorModel)
    (entry : EntryModel) :
    BoundRouteActor → Except String (List (GeneratedField × GeneratedFieldSource))
  | .fixed id => actorTargetPlan app plan actor.name id
  | .local name =>
    match selectorForLocal entry name with
    | none => .error s!"unbound output selector `{name}`"
    | some selector => selectorTargetPlan app plan actor.name selector
  | .linked _ _ | .selector _ | .expression _ =>
    .error s!"entry `{actor.name}::{entry.name}` has a route target without an output target plan"

end Argent.Model
