import Argent.Model.Outputs
import Argent.Model.StateLayout

/-!
# Output targets

`ActorOutputPlan` of `compiler/model/outputs.rs`: the physical plan of every target that the entries
of an actor can write, with the sources of its generated fields.

* `outputTargetPlan`      the plan of one target;
* `actorOutputPlan`       the plans of the actors, the open states and the selectors.
-/

set_option linter.unusedSectionVars false

namespace Argent.Model
open Argent.Fallible

structure OutputTargetPlan where
  target : PhysicalTargetId
  canonicalTarget : PhysicalTargetId
  silType : SilStateType
  physical : TargetPhysicalPlan
  generatedFields : List (GeneratedFieldId × GeneratedFieldSource)

/-- the plans by target, and the targets of the actors, the open states and the selectors, which are
bound by their entry and their name -/
structure ActorOutputPlan where
  targets : PhysicalTargetId → Option OutputTargetPlan
  actors : StaticActorId → Option PhysicalTargetId
  openStates : SourceStateId → Option PhysicalTargetId
  selectors : String × String → Option PhysicalTargetId

namespace ActorOutputPlan
variable (outputs : ActorOutputPlan)

def target (id : PhysicalTargetId) : Except String OutputTargetPlan :=
  okOr (outputs.targets id) "missing completed output target plan"

end ActorOutputPlan

section
variable (model : StateModel) (app : App) (plan : CompilerRoutePlan) (source : ActorModel)
variable (lowering : ContractStateLowering)

/-- the sources of the generated fields of a layout, and the families that no field packs -/
def generatedSources (layout : PhysicalStateLayout) (held : List GeneratedFieldId) :
    List String → List GeneratedFieldId →
      Except String (List (GeneratedFieldId × GeneratedFieldSource) × List String)
  | familiesToPack, [] => .ok ([], familiesToPack)
  | familiesToPack, id :: ids => do
    rejectIf (layout.field (.generated id)).isNone
      "generated output field is missing from its physical layout"
    let (fieldSource, familiesToPack) ←
      generatedFieldSource plan source.name held familiesToPack id
    let (sources, familiesToPack) ← generatedSources layout held familiesToPack ids
    return ((id, fieldSource) :: sources, familiesToPack)

/-- the generated fields of a layout -/
def PhysicalStateLayout.generatedIds (layout : PhysicalStateLayout) : List GeneratedFieldId :=
  layout.fields.filterMap fun field => match field.id with
    | .generated id => some id
    | .storage _ => none

def outputTargetPlan (output : OutputPhysicalTypePlan) (transition : CompilerRouteTransition) :
    Except String OutputTargetPlan := do
  let physical ← okOr (lowering.targetPhysical output.target)
    "output target has no physical layout plan"
  let (generatedFields, left) ← generatedSources plan source physical.physical
    lowering.active.physical.generatedIds transition.familiesToPack
    physical.storageToPhysical.generatedFields
  match left with
  | family :: _ =>
    .error s!"output transition packs route family `{family}` without a generated target field"
  | [] => return {
      target := output.target
      canonicalTarget := output.canonicalTarget
      silType := output.silType
      physical
      generatedFields }

/-- the transition to an actor; linked actors have no routes here -/
def outputTransitionForActor : StaticActorId → Except String CompilerRouteTransition
  | .linked _ => .ok ⟨[], []⟩
  | .inApp target => outputTransition plan source.name target

/-- whether an output can have the actor as its target -/
def isOutputTarget : StaticActorId → Bool
  | .inApp id => decide (id = source.name) || (routeTransition plan source.name id).isSome
  | .linked _ => true

def actorOutputTarget (identity : StaticActorId) :
    Except String (StaticActorId × OutputTargetPlan) := do
  let transition ← outputTransitionForActor plan source identity
  let output ← okOr (lowering.outputTypeForActor identity)
    (s!"actor `{source.name}` has no output state target plan for " ++
      s!"`{staticActorReference identity}`")
  let target ← outputTargetPlan plan source lowering output transition
  return (identity, target)

/-- the variants of a selector share one route transition -/
def selectorTransition (selector : TemplateSelector) : Except String CompilerRouteTransition :=
  match selector.targets with
  | [] => .error s!"actor selector `{selector.name}` has no variants"
  | first :: rest => do
    let transition ← outputTransitionForActor plan source first
    rest.forM fun variant => do
      let candidate ← outputTransitionForActor plan source variant
      rejectIf (decide (candidate ≠ transition))
        s!"actor selector `{selector.name}` variants do not share one route transition"
    return transition

def selectorOutputTarget (entry : EntryModel) (selector : TemplateSelector) :
    Except String ((String × String) × OutputTargetPlan) := do
  let state ← model.selectorSourceState selector
  let output ← okOr (lowering.outputTypeForActorDomain state selector.targets)
    s!"actor `{source.name}` has no output state target plan for selector `{selector.name}`"
  let transition ← selectorTransition plan source selector
  let target ← outputTargetPlan plan source lowering output transition
  return ((entry.name, selector.name), target)

/-- every physical target that the entries of the actor can write -/
def actorOutputPlan : Except String ActorOutputPlan := do
  let actors ← ((staticActorIds model app).filter (isOutputTarget plan source)).mapM
    (actorOutputTarget plan source lowering)
  let openStates ← (model.stateSources.filterMap fun state =>
      (lowering.outputTypeForOpenState state).map fun output => (state, output)).mapM
    fun open_ => do
      let target ← outputTargetPlan plan source lowering open_.2 ⟨[], []⟩
      return (open_.1, target)
  let selectors ← (source.entries.flatMap fun entry =>
      entry.templateSelectors.map fun selector => (entry, selector)).mapM
    fun selector => selectorOutputTarget model plan source lowering selector.1 selector.2
  let plans := actors.map Prod.snd ++ openStates.map Prod.snd ++ selectors.map Prod.snd
  return {
    targets := tableOf (plans.map fun target => (target.target, target))
    actors := tableOf (actors.map fun target => (target.1, target.2.target))
    openStates := tableOf (openStates.map fun target => (target.1, target.2.target))
    selectors := tableOf (selectors.map fun target => (target.1, target.2.target)) }

end

end Argent.Model
