import Argent.Base.Chain
import Argent.Resolve.NamespacesSound

/-!
# Paths

`bind_export_path` and `resolve_app_member` of `compiler/resolve/namespaces.rs`: a name such as
`library::app::Actor` is followed from the module where it is used.  The two functions call each
other, so a run is given fuel, and a run that needs more has no result.

* `ResolvedExports`       modules with the exports that were made of them;
* `bindSegments`          the loop over the segments, up to the member of an app;
* `resolveAppMember`      the actor of an app with a name;
* `bindExportPath`        the target of a path.
-/

set_option linter.unusedSectionVars false

namespace Argent.Resolve
open Argent.Fallible

/-- modules with their imports and the names available in each -/
structure ResolvedExports where
  graph : ModuleGraph
  table : NamespaceTable
  table_eq : NamespaceTable.new graph = .ok table

/-- how a binding ends: with a target, an error or a panic -/
abbrev Bound (α : Type) := Except (Fault ArgentError) α

namespace ResolvedExports
variable (program : ResolvedExports)

def modulePath (id : ModuleId) : String := (program.graph.modules[id]?.map Module.path).getD ""

def appDecl (id : DeclId) : Option AppDecl :=
  if id.kind = .app then program.graph.modules[id.moduleId]?.bind (·.apps[id.index]?) else none

def actorDecl (id : DeclId) : Option ActorDecl :=
  if id.kind = .actor then program.graph.modules[id.moduleId]?.bind (·.actors[id.index]?) else none

/-- the export `segment` of the module a path has come to -/
def lookup (fromModule : ModuleId) (reference : String) (current : ModuleId) (segment : String) :
    Bound ResolvedName := do
  if !Model.isIdentifier segment then
    fail (.at (program.modulePath fromModule) s!"invalid qualified reference `{reference}`")
  let exports ← expect program.table.exports[current]? "index out of bounds"
  okOr (exports.get segment) (.error (.at (program.modulePath fromModule)
    s!"unknown export `{segment}` while resolving `{reference}`"))

/-- the loop of `bind_export_path` at the module `current`: a path ends in a result `done`, or in
the call `member` for an actor of an app -/
def bindSegments {ρ : Type} (done : Bound ResolvedName → ρ) (member : DeclId → String → ρ)
    (fromModule : ModuleId) (reference : String) : ModuleId → List String → ρ
  | _, [] => done (fail (.at (program.modulePath fromModule)
      s!"invalid qualified reference `{reference}`"))
  | current, segment :: rest =>
    match program.lookup fromModule reference current segment, rest with
    | .error e, _ => done (.error e)
    | .ok target, [] => done (.ok target)
    | .ok (.namespaceOf importedModule), _ :: _ =>
      bindSegments done member fromModule reference importedModule rest
    | .ok (.declaration app), actorName :: more =>
      if app.kind = .app ∧ more = [] then member app actorName
      else done (fail (.at (program.modulePath fromModule)
        s!"export `{segment}` is not a namespace while resolving `{reference}`"))
    | .ok (.appMember _), _ :: _ => done (fail (.at (program.modulePath fromModule)
        s!"export `{segment}` is not a namespace while resolving `{reference}`"))

/-- one actor reference of an app with its target; `matching` is the actor found before it -/
def matchActor (app : DeclId) (appDecl : AppDecl) (actorName : String) (matching : Option DeclId)
    (actorReference : String) (target : ResolvedName) : Bound (Option DeclId) :=
  match target with
  | .declaration actor =>
    if actor.kind ≠ .actor then .ok matching
    else do
      let decl ← expect (program.actorDecl actor) "actor declaration ID resolves to an actor"
      if decl.name ≠ actorName then .ok matching
      else if matching.isSome then
        fail (.at (program.modulePath app.moduleId)
          s!"app `{appDecl.name}` exports actor name `{actorName}` more than once")
      else .ok (some actor)
  | _ => fail (.at (program.modulePath app.moduleId)
      s!"app `{appDecl.name}` member `{actorReference}` does not name a local actor")

/-- the loop over the actor references of an app; `bind` follows one of them -/
def matchActors (bind : String → Option (Bound ResolvedName)) (app : DeclId) (appDecl : AppDecl)
    (actorName : String) : Option DeclId → List String → Option (Bound (Option DeclId))
  | matching, [] => some (.ok matching)
  | matching, actorReference :: rest =>
    match bind actorReference with
    | none => none
    | some (.error e) => some (.error e)
    | some (.ok target) =>
      match program.matchActor app appDecl actorName matching actorReference target with
      | .error e => some (.error e)
      | .ok matching => matchActors bind app appDecl actorName matching rest

/-- what `resolve_app_member` returns for the actor it found -/
def memberFound (fromModule : ModuleId) (app : DeclId) (appDecl : AppDecl)
    (actorName reference : String) (matching : Option DeclId) : Bound ResolvedName :=
  okOr (matching.map fun actor => .appMember ⟨app, actor⟩)
    (.error (.at (program.modulePath fromModule)
      s!"app `{appDecl.name}` has no actor member `{actorName}` while resolving `{reference}`"))

def resolveAppMember : Nat → ModuleId → DeclId → String → String → Option (Bound ResolvedName)
  | 0, _, _, _, _ => none
  | fuel + 1, fromModule, app, actorName, reference =>
    match program.appDecl app with
    | none => some (.error (.panic "app declaration ID resolves to an app"))
    | some appDecl =>
      (program.matchActors
        (fun actorReference => program.bindSegments some
          (fun app' actorName' =>
            resolveAppMember fuel app.moduleId app' actorName' actorReference)
          app.moduleId actorReference app.moduleId (pathSegments actorReference))
        app appDecl actorName none appDecl.actors).map
      fun matching => matching >>= program.memberFound fromModule app appDecl actorName reference

/-- follows a name from the module where it is used -/
def bindExportPath (fuel : Nat) (fromModule : ModuleId) (segments : List String)
    (reference : String) : Option (Bound ResolvedName) :=
  program.bindSegments some
    (fun app actorName => program.resolveAppMember fuel fromModule app actorName reference)
    fromModule reference fromModule segments

/-! ## the calls between the two functions -/

/-- a call of `resolve_app_member`: the app and the name of the actor -/
abbrev MemberCall := DeclId × String

/-- where the loop over the segments ends -/
inductive PathEnd where
  | done (result : Bound ResolvedName)
  | member (call : MemberCall)

/-- how a path ends, without the call for the member of an app -/
def followPath (fromModule : ModuleId) (reference : String) (segments : List String) : PathEnd :=
  program.bindSegments .done (fun app actorName => .member (app, actorName)) fromModule reference
    fromModule segments

/-- the first of an app's actor references that leads to the member of an app, when the loop over
them comes that far -/
def nestedCall (app : DeclId) (appDecl : AppDecl) (actorName : String) :
    Option DeclId → List String → Option MemberCall
  | _, [] => none
  | matching, actorReference :: rest =>
    match program.followPath app.moduleId actorReference (pathSegments actorReference) with
    | .member call => some call
    | .done (.error _) => none
    | .done (.ok target) =>
      match program.matchActor app appDecl actorName matching actorReference target with
      | .error _ => none
      | .ok matching => nestedCall app appDecl actorName matching rest

/-- the call that a call makes, if any -/
def nextCall (call : MemberCall) : Option MemberCall :=
  (program.appDecl call.1).bind fun appDecl =>
    program.nestedCall call.1 appDecl call.2 none appDecl.actors

end ResolvedExports

end Argent.Resolve
