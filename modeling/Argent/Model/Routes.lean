import Argent.Model.Entry
import Argent.Routing.RoutePlan
import Mathlib.Data.Prod.Lex

/-!
# Routes of an app

`compiler/model/routes.rs`: the adapter between the app model and the generic route planner.  Actors
and states are known by their display names, so the lookups of a name's declaration disappear.

* `RouteInputs`, `routeInputs`     the graph, domains and selector requirements of an app;
* `compilerRouteLeaves`            the planned cuts as actors and families;
* `inferDirectRoutes`              families, leaves and transitions of the app.
-/

set_option linter.unusedSectionVars false

namespace Argent.Model
open Argent.Routing

/-- a state-local actor family represented by one ordered route table -/
structure RouteFamily where
  id : String
  state : DeclId
  rep : DeclId
  actors : List DeclId
  entryActors : List DeclId
  tableActors : List DeclId
deriving DecidableEq, Repr

/-- the serialized byte length of the route table -/
def RouteFamily.tableByteLen (family : RouteFamily) : Nat := family.tableActors.length * 32

/-- one selected root in an actor-carried route commitment -/
inductive RouteRootLeaf where
  | actor (id : DeclId)
  | family (id : String)
deriving DecidableEq, Repr

/-- operations that transform one actor's route cut into another's -/
structure CompilerRouteTransition where
  familiesToOpen : List String
  familiesToPack : List String
deriving DecidableEq, Repr

/-- compiler route families, actor cuts and transitions derived for one app -/
structure CompilerRoutePlan where
  families : List RouteFamily
  leavesByActor : List (DeclId × List RouteRootLeaf)
  transitions : List ((DeclId × DeclId) × CompilerRouteTransition)

/-! ## planner inputs -/

/-- what the adapter hands to the planner, and the pairs that need a transition -/
structure RouteInputs where
  graph : RouteGraph DeclId
  domains : BTreeMap DeclId (List DeclId)
  selectors : List (SelectorRequirement DeclId DeclId)
  transitionPairs : BTreeSet (DeclId ×ₗ DeclId)

def RouteInputs.empty : RouteInputs := ⟨RouteGraph.empty, ∅, [], ∅⟩

def selectorVariantName (app : App) (actor : ActorModel) (selector : TemplateSelector) :
    StaticActorId → Except String DeclId
  | .linked _ => .error s!"actor selector `{selector.name}` targets an actor outside the selected app"
  | .inApp id =>
    match app.actor? id with
    | none => .error s!"actor selector `{selector.name}` has an unknown actor target"
    | some target =>
      if target.state ≠ actor.state then
        .error s!"actor selector `{selector.name}` targets a different source state"
      else .ok id

def selectorRequirement (app : App) (actor : ActorModel) (selector : TemplateSelector) :
    Except String (SelectorRequirement DeclId DeclId) := do
  if selector.targets = [] then
    .error s!"actor selector `{selector.name}` has no variants"
  else
    let variants ← selector.targets.mapM (selectorVariantName app actor selector)
    return { domain := actor.state, source := actor.name, variants }

/-- the actor of the selected app that a static identity names -/
def selectedActor (app : App) : StaticActorId → Option DeclId
  | .linked _ => none
  | .inApp id => if (app.actor? id).isSome then some id else none

/-- the selected actors that the interactions of a section name -/
def selectedTargets (app : App) (section_ : InteractionSection) : List DeclId :=
  section_.items.flatMap fun interaction =>
    interaction.target.staticActors.filterMap (selectedActor app)

/-- A single-actor covenant already authenticates its only possible template, so its self-input
needs no route leaf. -/
def addGroupInput (app : App) (actor : DeclId) (inputs : RouteInputs) (target : DeclId) :
    RouteInputs :=
  if app.isSingletonActorSelfTarget actor target then inputs
  else { inputs with graph := inputs.graph.addConsume actor target }

/-- A self-output adds no dependency edge, but its no-op cut transition is planned. -/
def addGroupOutput (actor : DeclId) (inputs : RouteInputs) (target : DeclId) : RouteInputs :=
  { inputs with
    graph := if actor ≠ target then inputs.graph.addEmit actor target else inputs.graph
    transitionPairs := insert (toLex (actor, target)) inputs.transitionPairs }

def addGroup (app : App) (actor : DeclId) (inputs : RouteInputs) (group : CovenantGroup) :
    RouteInputs :=
  let inputs := (selectedTargets app group.inputs).foldl (addGroupInput app actor) inputs
  (selectedTargets app group.outputs).foldl (addGroupOutput actor) inputs

def addEntry (app : App) (actor : ActorModel) (inputs : RouteInputs) (entry : EntryModel) :
    Except String RouteInputs := do
  let selectors ← entry.templateSelectors.mapM (selectorRequirement app actor)
  return entry.groups.foldl (addGroup app actor.name)
    { inputs with selectors := inputs.selectors ++ selectors }

/-- a route-isolated actor still needs an empty cut in the final plan -/
def addActor (app : App) (inputs : RouteInputs) (actor : ActorModel) : Except String RouteInputs :=
  actor.entries.foldlM (addEntry app actor)
    { inputs with
      graph := inputs.graph.addActor actor.name
      domains := inputs.domains.modify actor.state fun order => order ++ [actor.name] }

def routeInputs (app : App) : Except String RouteInputs :=
  app.actors.foldlM (addActor app) RouteInputs.empty

/-! ## planner results -/

/-- the table of a family branch -/
def branchTable : List (CommitmentNode DeclId) → Except String (List DeclId)
  | [] => .ok []
  | .leaf actor :: children => do return actor :: (← branchTable children)
  | .branch _ :: _ => .error "nested commitment families cannot be lowered by the compiler"

def compilerRouteFamilyId (plan : RoutePlan DeclId DeclId) :
    CommitmentNode DeclId → Except String String
  | .leaf _ => .error "commitment transition operation must reference a route family branch"
  | .branch children => do
    let table ← branchTable children
    match plan.families.find? fun family => decide (family.table = table) with
    | none => .error s!"commitment branch {table} has no matching route family"
    | some family => return routeFamilyId family.domain family.rep

def compilerRouteLeaf (plan : RoutePlan DeclId DeclId) :
    CommitmentNode DeclId → Except String RouteRootLeaf
  | .leaf actor => .ok (.actor actor)
  | .branch children => do return .family (← compilerRouteFamilyId plan (.branch children))

/-- the leaves of one actor with a planned cut -/
def compilerRouteLeavesOf (plan : RoutePlan DeclId DeclId) (actor : DeclId) :
    Except String (DeclId × List RouteRootLeaf) := do
  let leaves ← ((plan.commitments.cutNodes actor).getD []).mapM (compilerRouteLeaf plan)
  return (actor, leaves)

def compilerRouteLeaves (plan : RoutePlan DeclId DeclId) :
    Except String (List (DeclId × List RouteRootLeaf)) :=
  plan.commitments.cuts.keys.toList.mapM (compilerRouteLeavesOf plan)

def compilerRouteTransition (plan : RoutePlan DeclId DeclId) (source target : DeclId) :
    Except String CompilerRouteTransition :=
  match plan.commitments.cutTransition source target with
  | .error e => .error e.message
  | .ok transition => do
    let familiesToOpen ← transition.branchesToOpen.mapM fun branch =>
      compilerRouteFamilyId plan branch.get
    let familiesToPack ← transition.branchesToPack.mapM fun branch =>
      compilerRouteFamilyId plan branch.get
    return { familiesToOpen, familiesToPack }

/-- a planned family under the compiler's names -/
def compilerRouteFamily (family : FamilyPlan DeclId DeclId) : RouteFamily where
  id := routeFamilyId family.domain family.rep
  state := family.domain
  rep := family.rep
  actors := family.members
  entryActors := family.members.filter fun actor => decide (actor ∉ family.table)
  tableActors := family.table

/-- the compiler's view of a route plan -/
def compilerRoutePlan (plan : RoutePlan DeclId DeclId) (pairs : BTreeSet (DeclId ×ₗ DeclId)) :
    Except String CompilerRoutePlan := do
  let leavesByActor ← compilerRouteLeaves plan
  let transitions ← pairs.toList.mapM fun pair => do
    let transition ← compilerRouteTransition plan (ofLex pair).1 (ofLex pair).2
    return (ofLex pair, transition)
  return { families := plan.families.map compilerRouteFamily, leavesByActor, transitions }

def inferDirectRoutes (app : App) : Except String CompilerRoutePlan := do
  let inputs ← routeInputs app
  match routePlan inputs.graph inputs.domains inputs.selectors with
  | .error e => .error e.message
  | .ok plan => compilerRoutePlan plan inputs.transitionPairs

end Argent.Model
