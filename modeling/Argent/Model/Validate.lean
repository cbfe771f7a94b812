import Argent.Model.Inputs
import Argent.Model.Layout

/-!
# Validation of entries

The checks of `compiler/model/validate.rs` on the current covenant of an entry: delegates, consumed
actors, declared outputs and the successors of every terminal path.  Messages show an actor by its
display name; an enum in an `emits` clause is shown by its variants.

* `routeTargetIds`                   the concrete actors of a route;
* `validateRouteAllowed`             a route fits the output it names;
* `validateNamedOutputCoverage`      every terminal path validates every output once;
* `validateEntry`, `CompiledApp`     an app whose entries pass, with its planned routes.
-/

set_option linter.unusedSectionVars false

namespace Argent.Model

def actorLabel : StaticActorId → String
  | .inApp id => id
  | .linked id => id.app ++ "::" ++ id.actor

section
variable (app : App) (actor : ActorModel) (entry : EntryModel)

/-- the actor is a member of the selected app -/
def requireSelectedActorTarget (target : StaticActorId) (message : String) : Except String Unit :=
  match target with
  | .inApp id => if (app.actor? id).isSome then .ok () else .error message
  | .linked _ => .error message

/-! ## clauses -/

/-- a delegate names its leader, becomes nothing and spawns nothing -/
def validateDelegate : Except String Unit :=
  if entry.kind = .delegate ∧ entry.genesisGroups ≠ [] then
    .error s!"delegate `{actor.name}::{entry.name}` cannot spawn covenant outputs"
  else if entry.kind = .delegate ∧ entry.current.inputs.items = [] then
    .error (s!"delegate `{actor.name}::{entry.name}` must declare its leader as the first " ++
      "`consumes` actor")
  else if entry.kind = .delegate ∧ entry.routes ≠ [] then
    .error (s!"delegate `{actor.name}::{entry.name}` cannot use `become`; delegates verify " ++
      "coordinated transitions but emit no outputs")
  else .ok ()

def validateConsume (interaction : EntryInteraction) : Except String Unit :=
  let message := s!"entry `{actor.name}::{entry.name}` consumes unknown actor `{interaction.handle}`"
  match interaction.target.singleStaticActor with
  | none => .error message
  | some target => requireSelectedActorTarget app target message

/-- an output after the outputs named `seen` -/
def validateEmit (seen : List String) (interaction : EntryInteraction) :
    Except String (List String) := do
  if interaction.handle ∈ seen then
    .error (s!"entry `{actor.name}::{entry.name}` declares output `{interaction.handle}` more than " ++
      "once")
  else
    match interaction.target with
    | .static targets =>
      targets.forM fun target => requireSelectedActorTarget app target
        (s!"entry `{actor.name}::{entry.name}` output `{interaction.handle}` emits unknown actor " ++
          s!"`{actorLabel target}`")
      return seen ++ [interaction.handle]
    | .source _ | .unresolvedStatic _ =>
      .error (s!"entry `{actor.name}::{entry.name}` output `{interaction.handle}` has no bound " ++
        "actor targets")

def validateEmits : Except String (List String) :=
  entry.current.outputs.items.foldlM (validateEmit app actor entry) []

/-! ## routes -/

def selectorForLocal (name : String) : Option TemplateSelector :=
  entry.templateSelectors.find? fun selector => decide (selector.name = name)

/-- the variants that a selector can choose -/
def TemplateSelector.routeActorIds (selector : TemplateSelector) :
    Except String (List StaticActorId) :=
  match selector.fixedIndex with
  | none => .ok selector.targets
  | some index =>
    match selector.targets[index]? with
    | none => .error s!"selector `{selector.name}` has no bound fixed actor target"
    | some target => .ok [target]

/-- expand a bound entry route to its concrete targets -/
def routeTargetIds (route : EntryRoute) : Except String (List StaticActorId) :=
  match route.successor with
  | .exactSelf => .ok [.inApp actor.name]
  | .constructed target _ _ =>
    match target with
    | .fixed id => .ok [.inApp id]
    | .linked linkedApp linkedActor => .ok [.linked ⟨linkedApp, linkedActor⟩]
    | .selector _ =>
      .error (s!"entry `{actor.name}::{entry.name}` must assign an indexed actor enum choice to a " ++
        "local actor handle before `become`")
    | .local name =>
      match selectorForLocal entry name with
      | none =>
        .error s!"entry `{actor.name}::{entry.name}` routes through a local without an actor selector"
      | some selector => selector.routeActorIds
    | .expression _ =>
      .error (s!"entry `{actor.name}::{entry.name}` has a route target without a resolved actor or " ++
        "selector")

def successorArity : ResolvedSuccessor → RouteArity
  | .exactSelf => .one
  | .constructed _ arity _ => arity

/-- the current output that the route names -/
def routeOutput (route : EntryRoute) : Option EntryInteraction :=
  entry.current.outputs.items.find? fun output => decide (output.handle = route.output)

def validateRouteAllowed (route : EntryRoute) : Except String Unit := do
  let targets ← routeTargetIds actor entry route
  let labels := " | ".intercalate (targets.map actorLabel)
  if entry.current.outputs.items = [] then
    .error (s!"entry `{actor.name}::{entry.name}` has a `become` route to `{labels}`, but declares " ++
      "`emits none`")
  else
    match routeOutput entry route with
    | none =>
      .error s!"entry `{actor.name}::{entry.name}` routes through unknown output `{route.output}`"
    | some output =>
      if output.cardinality.isRange = true ∧ successorArity route.successor = .one then
        .error (s!"entry `{actor.name}::{entry.name}` range output `{output.handle}` must use bulk " ++
          s!"become syntax `{output.handle} <- Actor[](states)`")
      else if output.cardinality.isRange = false ∧ successorArity route.successor = .many then
        .error (s!"entry `{actor.name}::{entry.name}` singleton output `{output.handle}` must use " ++
          s!"scalar become syntax `{output.handle} <- Actor(state)`")
      else if ∀ target ∈ targets, target ∈ output.target.staticActors then .ok ()
      else
        .error (s!"entry `{actor.name}::{entry.name}` routes output `{output.handle}` to " ++
          s!"`{labels}`, but that output allows only " ++
          " | ".intercalate (output.target.staticActors.map actorLabel))

/-- constructed successors have selected actors; every route fits its output -/
def validateRoute (route : EntryRoute) : Except String Unit := do
  match route.successor with
  | .exactSelf => validateRouteAllowed actor entry route
  | .constructed _ _ _ =>
    let targets ← routeTargetIds actor entry route
    targets.forM fun target => requireSelectedActorTarget app target
      s!"entry `{actor.name}::{entry.name}` routes to unknown actor `{actorLabel target}`"
    validateRouteAllowed actor entry route

/-! ## coverage -/

/-- the first output that the path validates again after the outputs `seen` -/
def repeatedOutput : List String → List EntryRoute → Option String
  | _, [] => none
  | seen, route :: routes =>
    if (routeOutput entry route).isSome then
      if route.output ∈ seen then some route.output
      else repeatedOutput (route.output :: seen) routes
    else repeatedOutput seen routes

def validateTerminalPath (routes : List EntryRoute) (pathIdx : Nat) : Except String Unit :=
  match repeatedOutput entry [] routes with
  | some output =>
    .error (s!"entry `{actor.name}::{entry.name}` terminal path {pathIdx} validates output " ++
      s!"`{output}` more than once")
  | none =>
    match entry.current.outputs.items.find? fun output =>
        decide (output.handle ∉ routes.map (·.output)) with
    | some output =>
      .error (s!"entry `{actor.name}::{entry.name}` terminal path {pathIdx} does not validate " ++
        s!"output `{output.handle}`")
    | none => .ok ()

def validateNamedOutputCoverage : Except String Unit :=
  let outputs := entry.current.outputs.items
  if outputs = [] then .ok ()
  else if entry.analysis.terminalRouteSets = [] then
    .error (s!"entry `{actor.name}::{entry.name}` declares {outputs.length} emit outputs but has no " ++
      "terminal `become` route")
  else entry.analysis.terminalRouteSets.zipIdx.forM fun path =>
    validateTerminalPath actor entry path.1 path.2

def validateEntry : Except String Unit := do
  validateDelegate actor entry
  entry.current.inputs.items.forM (validateConsume app actor entry)
  let _ ← validateEmits app actor entry
  entry.routes.forM (validateRoute app actor entry)
  validateNamedOutputCoverage actor entry

end

/-- an app whose entries pass validation, with its planned routes -/
structure CompiledApp extends App where
  plan : CompilerRoutePlan
  planned : inferDirectRoutes toApp = .ok plan
  suffixes : validateGeneratedActorSuffixes toApp = .ok ()
  validated : ∀ actor ∈ actors, ∀ entry ∈ actor.entries, validateEntry toApp actor entry = .ok ()

/-- the compiled form of an app that planning and validation accept -/
def App.compiled (app : App) (planned : (inferDirectRoutes app).isOk = true)
    (suffixes : validateGeneratedActorSuffixes app = .ok ())
    (validated : ∀ actor ∈ app.actors, ∀ entry ∈ actor.entries,
      validateEntry app actor entry = .ok ()) : CompiledApp where
  toApp := app
  plan := (inferDirectRoutes app).toOption.getD ⟨[], [], []⟩
  planned := by
    obtain ⟨plan, h⟩ := Fallible.exists_ok_of_isOk planned
    rw [h]
    rfl
  suffixes := suffixes
  validated := validated

end Argent.Model
