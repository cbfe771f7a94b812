import Argent.Base.Topological
import Argent.Resolve.Program

/-!
# The order of apps

`AppGraphPlan::new` of `compiler/app_graph.rs`: the apps that an app depends on are visited depth
first; an app is planned after all of its dependencies.

* `SourceApp`            an app and the file that declares it;
* `sourceUnit`           what is built for an app: its module and the apps it depends on;
* `AppGraphPlanner.enter`      the marks of an app that is visited;
* `visit`                the walk, with fuel for its depth;
* `AppGraphPlan.new`     the order in which the apps are built.
-/

set_option linter.unusedSectionVars false

namespace Argent.Resolve
open Argent.Fallible

structure SourceApp where
  source : String
  app : String
deriving Repr

def SourceApp.key (a : SourceApp) : List String := [a.source, a.app]

theorem SourceApp.key_inj {a b : SourceApp} (h : a.key = b.key) : a = b := by
  obtain ⟨source, app⟩ := a
  obtain ⟨source', app'⟩ := b
  simp only [SourceApp.key, List.cons.injEq, and_true] at h
  obtain ⟨rfl, rfl⟩ := h
  rfl

instance : LinearOrder SourceApp := LinearOrder.lift' SourceApp.key fun _ _ h => SourceApp.key_inj h

structure AppBuildUnit where
  sourceApp : SourceApp
  root : ModuleId
  dependencies : List SourceApp
deriving DecidableEq

/-- the mark of an app: on the stack from a place on, or planned -/
inductive Visit where
  | active (start : Nat)
  | complete
deriving Repr, DecidableEq

structure AppGraphPlanner where
  appSources : BTreeMap String String
  visits : BTreeMap SourceApp Visit
  stack : List SourceApp
  order : List AppBuildUnit

/-! ## dependencies -/

namespace ResolvedModules
variable (resolved : ResolvedModules)

def appSource (app : DeclId) : Option SourceApp :=
  (resolved.program.appDecl app).map fun decl =>
    ⟨resolved.program.modulePath app.moduleId, decl.name⟩

/-- the apps whose actors are referenced from an app of the root module -/
def dependencies (app : DeclId) : Bound (BTreeSet SourceApp) := do
  let members ← resolved.referencedAppMembers app
  let apps ← members.toList.mapM fun member =>
    expect (resolved.appSource member.app) "index out of bounds"
  return .ofList apps

/-- the module of an app and the apps it depends on -/
def sourceUnit (a : SourceApp) : Bound AppBuildUnit := do
  let root ← okOr (resolved.moduleIdForPath a.source)
    (.error (.at a.source "app source is outside the discovered import graph"))
  let selectedApp ← (resolved.withRoot root).rootApp a.app
  let dependencies ← (resolved.withRoot root).dependencies selectedApp
  return ⟨a, root, dependencies.toList⟩

end ResolvedModules

/-! ## the walk -/

namespace AppGraphPlanner

def empty : AppGraphPlanner := ⟨∅, ∅, [], []⟩

/-- the file an app's name comes from, the same one at every visit -/
def claimSource (planner : AppGraphPlanner) (a : SourceApp) : Bound AppGraphPlanner :=
  let claimed := { planner with appSources := planner.appSources.insert a.app a.source }
  match planner.appSources.get a.app with
  | none => .ok claimed
  | some previous =>
    if previous ≠ a.source then
      fail (.new s!"app `{a.app}` is imported from both `{previous}` and `{a.source}`")
    else .ok claimed

/-- whether the app was planned before; an app on the stack closes a cycle -/
def enter (planner : AppGraphPlanner) (a : SourceApp) : Bound (AppGraphPlanner × Bool) := do
  let claimed ← planner.claimSource a
  match claimed.visits.get a with
  | none => return (claimed, false)
  | some .complete => return (claimed, true)
  | some (.active start) =>
    fail (.new ("app import cycle: " ++
      " -> ".intercalate ((claimed.stack.drop start ++ [a]).map SourceApp.app)))

/-- the app is on the stack while its dependencies are visited -/
def start (planner : AppGraphPlanner) (a : SourceApp) : AppGraphPlanner :=
  { planner with
    visits := planner.visits.insert a (.active planner.stack.length)
    stack := planner.stack ++ [a] }

def finish (planner : AppGraphPlanner) (unit : AppBuildUnit) : AppGraphPlanner :=
  { planner with
    visits := planner.visits.insert unit.sourceApp .complete
    stack := planner.stack.dropLast
    order := planner.order ++ [unit] }

end AppGraphPlanner

/-- the loop over dependencies, each visited with the planner that the one before left -/
def visitAll (visit : SourceApp → AppGraphPlanner → Option (Bound AppGraphPlanner)) :
    List SourceApp → AppGraphPlanner → Option (Bound AppGraphPlanner)
  | [], planner => some (.ok planner)
  | a :: rest, planner =>
    match visit a planner with
    | none => none
    | some (.error e) => some (.error e)
    | some (.ok planner) => visitAll visit rest planner

def visit (resolved : ResolvedModules) :
    Nat → SourceApp → AppGraphPlanner → Option (Bound AppGraphPlanner)
  | 0, _, _ => none
  | fuel + 1, a, planner =>
    match planner.enter a with
    | .error e => some (.error e)
    | .ok (planner, true) => some (.ok planner)
    | .ok (planner, false) =>
      match resolved.sourceUnit a with
      | .error e => some (.error e)
      | .ok unit =>
        (visitAll (visit resolved fuel) unit.dependencies (planner.start a)).map
          fun visited => visited.map fun planner => planner.finish unit

namespace ResolvedModules
variable (resolved : ResolvedModules)

/-- the apps of the program, by the files that declare them -/
def sourceApps : List SourceApp :=
  resolved.graph.modules.flatMap fun m => m.apps.map fun app => ⟨m.path, app.name⟩

/-- the app with a name in the root module -/
def rootSourceApp (app : String) : SourceApp := ⟨resolved.program.modulePath resolved.root, app⟩

end ResolvedModules

/-- the apps that an app needs, each after the apps it depends on; at most one visit for each app
is open at a time, so the fuel is enough -/
def AppGraphPlan.new (resolved : ResolvedModules) (app : String) :
    Option (Bound (List AppBuildUnit)) :=
  (visit resolved (resolved.sourceApps.length + 1) (resolved.rootSourceApp app) .empty).map
    fun visited => visited.map AppGraphPlanner.order

end Argent.Resolve
