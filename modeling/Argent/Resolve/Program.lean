import Argent.Base.Worklist
import Argent.Resolve.PathsSound

/-!
# Resolved programs

`ResolvedModules` of `compiler/resolve/mod.rs`: the modules with their exports, seen from a root
module, and what the references inside each declaration refer to.

* `DeclarationBindings`       what the binder recorded for a declaration;
* `ResolvedModules`           a program whose references lead to declarations of the program;
* `ResolvedModules.appActorIds`      the actors of an app;
* `ResolvedModules.appDeclarations`      the declarations an app is compiled from;
* `ResolvedModules.referencedAppMembers`      the actors of other apps among their references.
-/

set_option linter.unusedSectionVars false

namespace Argent.Resolve
open Argent.Fallible

/-- a step from an expression to a part of it -/
inductive ChildEdge where
  | expression
  | expressionLeft
  | expressionRight
deriving Repr, DecidableEq

/-- what the binder recorded for one declaration: the declarations and the actors of apps it refers
to, the targets of its names and of the names in its expression, the names of its local scopes, and
the texts of its sites that are bound to a builtin or to a root of the runtime -/
structure DeclarationBindings where
  declarations : BTreeSet DeclId
  apps : BTreeSet AppMember
  names : BTreeMap String ResolvedName
  sites : List ChildEdge → Option ResolvedName
  localNames : BTreeSet String
  runtimeTexts : List String

/-- a program after its references were bound, seen from the module `root` -/
structure ResolvedModules where
  program : ResolvedExports
  root : ModuleId
  bindings : BTreeMap DeclId DeclarationBindings
  /-- the binder accepts an app only when its references name actors -/
  app_actors : ∀ app decl, program.appDecl app = some decl → ∀ reference ∈ decl.actors,
    ∃ actor, program.followPath app.moduleId reference (pathSegments reference) =
      .done (.ok (.declaration actor)) ∧ actor.kind = .actor
  /-- only declarations of the program are recorded -/
  bound_declarations : ∀ id recorded, bindings.get id = some recorded →
    ∀ id' ∈ recorded.declarations, program.graph.HasDecl id'
  /-- a member of an app is only made of a declared app -/
  bound_apps : ∀ id recorded, bindings.get id = some recorded → ∀ member ∈ recorded.apps,
    ∃ decl, program.appDecl member.app = some decl

namespace ResolvedModules
variable (resolved : ResolvedModules)

/-- the same program seen from another module -/
def withRoot (root : ModuleId) : ResolvedModules := { resolved with root := root }

def graph : ModuleGraph := resolved.program.graph

theorem nextCall_none (call : ResolvedExports.MemberCall) :
    resolved.program.nextCall call = none := by
  cases hnext : resolved.program.nextCall call with
  | none => rfl
  | some call' =>
    obtain ⟨decl, happ, reference, hreference, hfollow⟩ := ResolvedExports.nextCall_some hnext
    obtain ⟨actor, hactor, _⟩ := resolved.app_actors call.1 decl happ reference hreference
    rw [hfollow] at hactor
    cases hactor

/-- a member call makes no other one, so one step is enough -/
theorem isSome_resolve (fromModule : ModuleId) (reference : String) :
    (resolved.program.bindExportPath 1 fromModule (pathSegments reference) reference).isSome =
      true :=
  (ResolvedExports.isSome_bindExportPath _ _ _ _).mpr fun call _ =>
    Chain.stops_succ_of_none _ (resolved.nextCall_none call) 0

def resolve (fromModule : ModuleId) (reference : String) : Bound ResolvedName :=
  (resolved.program.bindExportPath 1 fromModule (pathSegments reference) reference).get
    (resolved.isSome_resolve fromModule reference)

/-- the name of a declaration -/
def declName (id : DeclId) : Option String :=
  resolved.graph.modules[id.moduleId]?.bind fun m => (m.names id.kind)[id.index]?

/-- the name of a declaration of the program -/
def sourceName (id : DeclId) : String := (resolved.declName id).getD ""

/-- `declaration_path` -/
def declarationPath (id : DeclId) : String := resolved.program.modulePath id.moduleId

def moduleIdForPath (path : String) : Option ModuleId :=
  resolved.graph.modules.findIdx? fun m => m.path == path

/-- the app of the root module with a name -/
def rootApp (appName : String) : Bound DeclId :=
  match resolved.graph.modules[resolved.root]? with
  | none => .error (.panic "index out of bounds")
  | some m =>
    okOr ((m.apps.findIdx? fun app => app.name == appName).map fun index =>
        ⟨resolved.root, .app, index⟩)
      (.error (.at m.path s!"root module has no app named `{appName}`"))

/-! ## what an app is compiled from -/

/-- the declarations the root module exports -/
def rootDeclarations : List DeclId :=
  match resolved.program.table.exports[resolved.root]? with
  | none => []
  | some exports => exports.entries.filterMap fun entry =>
    match entry.2 with
    | .declaration id => some id
    | _ => none

/-- the declarations that the references of each declaration refer to -/
def references : BTreeMap DeclId (List DeclId) :=
  resolved.bindings.mapValues fun bindings => bindings.declarations.toList

/-- the starting declarations and everything they reference, directly or indirectly -/
def declarationClosure (roots : List DeclId) : BTreeSet DeclId :=
  Worklist.close resolved.references ∅ roots.reverse

/-- the target of an app's reference, when it is an actor -/
def expectActor (app : DeclId) (reference : String) : ResolvedName → Bound DeclId
  | .declaration actor =>
    if actor.kind = .actor then .ok actor
    else fail (.at (resolved.program.modulePath app.moduleId)
      (s!"reference `{reference}` names {actor.kind.description}, expected an actor"))
  | .appMember _ => fail (.at (resolved.program.modulePath app.moduleId)
      s!"app member `{reference}` cannot belong directly to another app")
  | .namespaceOf _ => fail (.at (resolved.program.modulePath app.moduleId)
      s!"module namespace `{reference}` cannot belong to an app")

/-- `names` are those of the actors before this one -/
def rejectRepeatedName (names : BTreeSet String) (actor : DeclId) : Bound (BTreeSet String) := do
  let name ← expect (resolved.declName actor) "index out of bounds"
  rejectIf (name ∈ names) (.error (.new s!"selected app exports actor name `{name}` more than once"))
  return insert name names

def appActorIds (app : DeclId) : Bound (List DeclId) := do
  let decl ← okOr (resolved.program.appDecl app) (.error (.new "declaration is not an app"))
  let actors ← decl.actors.mapM fun reference =>
    resolved.resolve app.moduleId reference >>= resolved.expectActor app reference
  let _ ← actors.foldlM resolved.rejectRepeatedName ∅
  return actors

/-- root constants, states, functions and actor enums, the app's actors, and everything they
reference -/
def appDeclarations (app : DeclId) : Bound (BTreeSet DeclId) := do
  let roots := resolved.rootDeclarations.filter fun id => id.kind ≠ .actor ∧ id.kind ≠ .app
  let actors ← resolved.appActorIds app
  return resolved.declarationClosure (roots ++ actors)

/-- the actors of apps that a declaration refers to -/
def boundApps (id : DeclId) : List AppMember :=
  ((resolved.bindings.get id).map fun bindings => bindings.apps.toList).getD []

def referencedAppMembers (app : DeclId) : Bound (BTreeSet AppMember) := do
  let declarations ← resolved.appDeclarations app
  return .ofList (declarations.toList.flatMap resolved.boundApps)

end ResolvedModules

end Argent.Resolve
