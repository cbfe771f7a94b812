import Argent.Base.Panics
import Argent.Resolve.Paths

/-!
# Paths: when they end

`resolve_app_member` follows an app's actor references with `bind_export_path`, which calls it
again when a reference is itself the member of an app.  At most one such call is made, and what it
returns ends the loop, so the calls form a chain.

* `bindSegments_eq`      a path is followed, then at most one member call is made;
* `isSome_resolveAppMember`      **a call has a result when the chain of its calls stops**;
* `followPath_valid`     what a path leads to is in the graph;
* `bindExportPath_terminates_iff`      **every path ends if and only if no member call leads back
                         to itself**.
-/

set_option linter.unusedSectionVars false

namespace Argent.Resolve
open Argent.Fallible

/-! ## the members of apps -/

namespace ModuleGraph
variable (graph : ModuleGraph)

/-- the declaration is one of the graph -/
def HasDecl (id : DeclId) : Prop :=
  ∃ m, graph.modules[id.moduleId]? = some m ∧ id.index < (m.names id.kind).length

/-- the target is inside the graph -/
def HasTarget : ResolvedName → Prop
  | .namespaceOf id => id < graph.modules.length
  | .declaration id => graph.HasDecl id
  | .appMember _ => True

variable {graph}

theorem Names.hasTarget {id : ModuleId} {name : String} {target : ResolvedName}
    (h : graph.Names id name target) : graph.HasTarget target := by
  obtain ⟨m, kind, index, hmodule, hname, rfl⟩ | ⟨i, hi, _, rfl⟩ := h
  · exact ⟨m, hmodule, (List.getElem?_eq_some_iff.mp hname).1⟩
  · unfold ModuleGraph.importsOf at hi
    obtain hnone | ⟨imports, himports⟩ := Option.eq_none_or_eq_some graph.imports[id]?
    · rw [List.getD_eq_getElem?_getD, hnone] at hi
      exact absurd hi List.not_mem_nil
    · rw [List.getD_eq_getElem?_getD, himports] at hi
      exact graph.targets_lt imports (List.mem_of_getElem? himports) i hi

theorem HasDecl.lt {id : DeclId} (h : graph.HasDecl id) : id.moduleId < graph.modules.length := by
  obtain ⟨m, hmodule, _⟩ := h
  exact (List.getElem?_eq_some_iff.mp hmodule).1

end ModuleGraph

namespace ResolvedExports
variable {program : ResolvedExports}

theorem exists_exports {current : ModuleId} (h : current < program.graph.modules.length) :
    ∃ exports, program.table.exports[current]? = some exports ∧
      ∀ name target, exports.get name = some target → program.graph.HasTarget target := by
  obtain ⟨hlength, _, _, hexact⟩ := NamespaceTable.new_ok program.table_eq
  have hget := List.getElem?_eq_getElem (hlength ▸ h : current < program.table.exports.length)
  refine ⟨_, hget, fun name target hname => ?_⟩
  obtain ⟨_, _, hnames⟩ := (hexact current _ hget name target).mp hname
  exact hnames.hasTarget

theorem exists_appDecl {app : DeclId} (h : program.graph.HasDecl app) (hkind : app.kind = .app) :
    ∃ appDecl, program.appDecl app = some appDecl := by
  obtain ⟨m, hmodule, hindex⟩ := h
  rw [hkind] at hindex
  have happs : app.index < m.apps.length := by
    simpa [Module.names] using hindex
  refine ⟨m.apps[app.index], ?_⟩
  unfold appDecl
  rw [if_pos hkind, hmodule, Option.bind_some, List.getElem?_eq_getElem happs]

theorem exists_actorDecl {actor : DeclId} (h : program.graph.HasDecl actor)
    (hkind : actor.kind = .actor) : ∃ decl, program.actorDecl actor = some decl := by
  obtain ⟨m, hmodule, hindex⟩ := h
  rw [hkind] at hindex
  have hactors : actor.index < m.actors.length := by
    simpa [Module.names] using hindex
  refine ⟨m.actors[actor.index], ?_⟩
  unfold actorDecl
  rw [if_pos hkind, hmodule, Option.bind_some, List.getElem?_eq_getElem hactors]

/-! ## the chain of calls -/

/-- a path is followed, then at most one member call is made -/
theorem bindSegments_eq {ρ : Type} (onEnd : PathEnd → ρ) (fromModule : ModuleId)
    (reference : String) (current : ModuleId) (segments : List String) :
    program.bindSegments (fun result => onEnd (.done result))
        (fun app actorName => onEnd (.member (app, actorName))) fromModule reference current
        segments =
      onEnd (program.bindSegments .done (fun app actorName => .member (app, actorName)) fromModule
        reference current segments) := by
  induction segments generalizing current with
  | nil => rfl
  | cons segment rest ih =>
    unfold bindSegments
    cases program.lookup fromModule reference current segment with
    | error e => rfl
    | ok target =>
      cases rest with
      | nil => rfl
      | cons actorName more =>
        cases target with
        | namespaceOf importedModule => exact ih importedModule
        | declaration app =>
          by_cases happ : app.kind = .app ∧ more = []
          · simp only [if_pos happ]
          · simp only [if_neg happ]
        | appMember member => rfl

/-- what is done with the end of a path -/
def PathEnd.run (member : DeclId → String → Option (Bound ResolvedName)) :
    PathEnd → Option (Bound ResolvedName)
  | .done result => some result
  | .member call => member call.1 call.2

theorem bindSegments_run (member : DeclId → String → Option (Bound ResolvedName))
    (fromModule : ModuleId) (reference : String) (segments : List String) :
    program.bindSegments some member fromModule reference fromModule segments =
      (program.followPath fromModule reference segments).run member :=
  bindSegments_eq (PathEnd.run member) fromModule reference fromModule segments

theorem resolveAppMember_ok {fuel : Nat} {fromModule : ModuleId} {app : DeclId}
    {actorName reference : String} {target : ResolvedName}
    (h : program.resolveAppMember fuel fromModule app actorName reference = some (.ok target)) :
    ∃ member, target = .appMember member := by
  cases fuel with
  | zero => cases h
  | succ fuel =>
    unfold resolveAppMember at h
    split at h
    · cases h
    · obtain ⟨result, _, hresult⟩ := Option.map_eq_some_iff.mp h
      obtain ⟨matching, _, hfound⟩ := bind_eq_ok.mp hresult
      obtain ⟨actor, _, rfl⟩ := Option.map_eq_some_iff.mp (okOr_eq_ok.mp hfound)
      exact ⟨_, rfl⟩

theorem isSome_matchActors {fuel : Nat}
    (hfuel : ∀ fromModule (call : MemberCall) reference,
      (program.resolveAppMember fuel fromModule call.1 call.2 reference).isSome =
        Chain.stops program.nextCall fuel call)
    (app : DeclId) (appDecl : AppDecl) (actorName : String) (references : List String)
    (matching : Option DeclId) :
    (program.matchActors
      (fun actorReference => program.bindSegments some
        (fun app' actorName' =>
          program.resolveAppMember fuel app.moduleId app' actorName' actorReference)
        app.moduleId actorReference app.moduleId (pathSegments actorReference))
      app appDecl actorName matching references).isSome =
    (program.nestedCall app appDecl actorName matching references).all
      (Chain.stops program.nextCall fuel) := by
  induction references generalizing matching with
  | nil => rfl
  | cons actorReference rest ih =>
    unfold matchActors nestedCall
    rw [bindSegments_run]
    cases program.followPath app.moduleId actorReference (pathSegments actorReference) with
    | member call =>
      simp only [PathEnd.run, Option.all_some]
      rw [← hfuel app.moduleId call actorReference]
      cases hcall : program.resolveAppMember fuel app.moduleId call.1 call.2 actorReference with
      | none => rfl
      | some result =>
        cases result with
        | error e => rfl
        | ok target =>
          -- the loop ends with an error at the member of another app
          obtain ⟨member, rfl⟩ := resolveAppMember_ok hcall
          rfl
    | done result =>
      cases result with
      | error e => rfl
      | ok target =>
        simp only [PathEnd.run]
        cases program.matchActor app appDecl actorName matching actorReference target with
        | error e => rfl
        | ok matching' => exact ih matching'

/-- **a member call has a result exactly when the chain of its calls stops** -/
theorem isSome_resolveAppMember (fuel : Nat) (fromModule : ModuleId) (call : MemberCall)
    (reference : String) :
    (program.resolveAppMember fuel fromModule call.1 call.2 reference).isSome =
      Chain.stops program.nextCall fuel call := by
  induction fuel generalizing fromModule call reference with
  | zero => rfl
  | succ fuel ih =>
    unfold resolveAppMember
    cases happ : program.appDecl call.1 with
    | none =>
      have hnext : program.nextCall call = none := by
        unfold nextCall
        rw [happ, Option.bind_none]
      rw [Chain.stops_succ_of_none _ hnext]
      rfl
    | some appDecl =>
      have hnext : program.nextCall call =
          program.nestedCall call.1 appDecl call.2 none appDecl.actors := by
        unfold nextCall
        rw [happ, Option.bind_some]
      simp only [Option.isSome_map]
      rw [isSome_matchActors ih]
      cases hnested : program.nestedCall call.1 appDecl call.2 none appDecl.actors with
      | none => rw [Option.all_none, Chain.stops_succ_of_none _ (hnext.trans hnested)]
      | some call' =>
        rw [Option.all_some, Chain.stops_succ_of_some _ (hnext.trans hnested)]

theorem isSome_bindExportPath (fuel : Nat) (fromModule : ModuleId) (segments : List String)
    (reference : String) :
    (program.bindExportPath fuel fromModule segments reference).isSome = true ↔
      ∀ call, program.followPath fromModule reference segments = .member call →
        Chain.stops program.nextCall fuel call = true := by
  unfold bindExportPath
  rw [bindSegments_run]
  cases program.followPath fromModule reference segments with
  | done result => simp [PathEnd.run]
  | member call =>
    simp only [PathEnd.run, isSome_resolveAppMember, PathEnd.member.injEq, forall_eq']

/-! ## what a path leads to -/

/-- the end of a path is inside the graph, and not a panic -/
def PathEnd.Inside (graph : ModuleGraph) (segments : List String) : PathEnd → Prop
  | .done result => Avoids (fun _ => True) result ∧
      ∀ target, result = .ok target → graph.HasTarget target
  | .member call => graph.HasDecl call.1 ∧ call.1.kind = .app ∧ call.2 ∈ segments

theorem PathEnd.inside_fail (graph : ModuleGraph) (segments : List String) (e : ArgentError) :
    (PathEnd.done (fail e)).Inside graph segments :=
  ⟨Avoids.fail e, fun _ h => by cases h⟩

theorem lookup_inside {current : ModuleId} (h : current < program.graph.modules.length)
    (fromModule : ModuleId) (reference segment : String) (segments : List String) :
    (PathEnd.done (program.lookup fromModule reference current segment)).Inside program.graph
      segments := by
  obtain ⟨exports, hexports, htargets⟩ := exists_exports h
  unfold lookup
  rw [hexports]
  cases Model.isIdentifier segment with
  | false => exact PathEnd.inside_fail _ _ _
  | true =>
    refine ⟨Avoids.okOr (exports.get segment) _, fun target htarget => ?_⟩
    exact htargets segment target (okOr_eq_ok.mp htarget)

theorem PathEnd.Inside.cons {graph : ModuleGraph} {segment : String} {segments : List String}
    {pathEnd : PathEnd} (h : pathEnd.Inside graph segments) :
    pathEnd.Inside graph (segment :: segments) := by
  cases pathEnd with
  | done result => exact h
  | member call => exact ⟨h.1, h.2.1, List.mem_cons_of_mem _ h.2.2⟩

theorem bindSegments_inside (fromModule : ModuleId) (reference : String) {current : ModuleId}
    (h : current < program.graph.modules.length) (segments : List String) :
    (program.bindSegments PathEnd.done (fun app actorName => .member (app, actorName)) fromModule
      reference current segments).Inside program.graph segments := by
  induction segments generalizing current with
  | nil => exact PathEnd.inside_fail _ _ _
  | cons segment rest ih =>
    have hlookup := lookup_inside h fromModule reference segment (segment :: rest)
    unfold bindSegments
    cases htarget : program.lookup fromModule reference current segment with
    | error e => rwa [htarget] at hlookup
    | ok target =>
      rw [htarget] at hlookup
      have hinside := hlookup.2 target rfl
      cases rest with
      | nil => exact hlookup
      | cons actorName more =>
        cases target with
        | namespaceOf importedModule => exact (ih hinside).cons
        | declaration app =>
          by_cases happ : app.kind = .app ∧ more = []
          · simp only [if_pos happ]
            exact ⟨hinside, happ.1, List.mem_cons_of_mem _ List.mem_cons_self⟩
          · simp only [if_neg happ]
            exact PathEnd.inside_fail _ _ _
        | appMember member => exact PathEnd.inside_fail _ _ _

theorem followPath_inside {fromModule : ModuleId} (h : fromModule < program.graph.modules.length)
    (reference : String) (segments : List String) :
    (program.followPath fromModule reference segments).Inside program.graph segments :=
  bindSegments_inside fromModule reference h segments

/-! ## finitely many calls -/

/-- the apps of the graph -/
def appIds (graph : ModuleGraph) : List DeclId :=
  graph.modules.zipIdx.flatMap fun item =>
    (List.range item.1.apps.length).map fun index => ⟨item.2, .app, index⟩

/-- the segments of the actor references of all apps -/
def memberNames (graph : ModuleGraph) : List String :=
  graph.modules.flatMap fun m => m.apps.flatMap fun app => app.actors.flatMap pathSegments

theorem mem_appIds {graph : ModuleGraph} {app : DeclId} (h : graph.HasDecl app)
    (hkind : app.kind = .app) : app ∈ appIds graph := by
  obtain ⟨m, hmodule, hindex⟩ := h
  rw [hkind] at hindex
  refine List.mem_flatMap.mpr ⟨(m, app.moduleId), List.mem_zipIdx_iff_getElem?.mpr hmodule, ?_⟩
  refine List.mem_map.mpr ⟨app.index, List.mem_range.mpr (by simpa [Module.names] using hindex), ?_⟩
  rw [← hkind]

theorem mem_memberNames {app : DeclId} {decl : AppDecl} (h : program.appDecl app = some decl)
    {reference name : String} (hreference : reference ∈ decl.actors)
    (hname : name ∈ pathSegments reference) : name ∈ memberNames program.graph := by
  unfold appDecl at h
  split_ifs at h with hkind
  obtain ⟨m, hmodule, happ⟩ := Option.bind_eq_some_iff.mp h
  refine List.mem_flatMap.mpr ⟨m, List.mem_of_getElem? hmodule, ?_⟩
  refine List.mem_flatMap.mpr ⟨decl, List.mem_of_getElem? happ, ?_⟩
  exact List.mem_flatMap.mpr ⟨reference, hreference, hname⟩

theorem appDecl_lt {app : DeclId} {decl : AppDecl} (h : program.appDecl app = some decl) :
    app.moduleId < program.graph.modules.length := by
  unfold appDecl at h
  split_ifs at h
  obtain ⟨m, hmodule, _⟩ := Option.bind_eq_some_iff.mp h
  exact (List.getElem?_eq_some_iff.mp hmodule).1

theorem nestedCall_some {app : DeclId} {appDecl : AppDecl} {actorName : String}
    {matching : Option DeclId} {references : List String} {call : MemberCall}
    (h : program.nestedCall app appDecl actorName matching references = some call) :
    ∃ reference ∈ references,
      program.followPath app.moduleId reference (pathSegments reference) = .member call := by
  induction references generalizing matching with
  | nil => cases h
  | cons actorReference rest ih =>
    unfold nestedCall at h
    split at h
    · rename_i call' hfollow
      obtain rfl := Option.some.inj h
      exact ⟨actorReference, List.mem_cons_self, hfollow⟩
    · cases h
    · split at h
      · cases h
      · obtain ⟨reference, hmem, hfollow⟩ := ih h
        exact ⟨reference, List.mem_cons_of_mem _ hmem, hfollow⟩

theorem nextCall_some {call call' : MemberCall} (h : Chain.Leads program.nextCall call call') :
    ∃ appDecl, program.appDecl call.1 = some appDecl ∧ ∃ reference ∈ appDecl.actors,
      program.followPath call.1.moduleId reference (pathSegments reference) = .member call' := by
  obtain ⟨appDecl, happ, hnested⟩ := Option.bind_eq_some_iff.mp h
  exact ⟨appDecl, happ, nestedCall_some hnested⟩

theorem mem_calls {call call' : MemberCall} (h : Chain.Leads program.nextCall call call') :
    call' ∈ (appIds program.graph ×ˢ memberNames program.graph).toFinset := by
  obtain ⟨appDecl, happ, reference, hreference, hfollow⟩ := nextCall_some h
  have hinside := followPath_inside (appDecl_lt happ) reference (pathSegments reference)
  rw [hfollow] at hinside
  obtain ⟨hdecl, hkind, hname⟩ := hinside
  rw [List.mem_toFinset]
  exact List.mem_product.mpr ⟨mem_appIds hdecl hkind, mem_memberNames happ hreference hname⟩

/-! ## no panics -/

theorem avoids_matchActor {target : ResolvedName} (h : program.graph.HasTarget target)
    (app : DeclId) (decl : AppDecl) (actorName : String) (matching : Option DeclId)
    (actorReference : String) :
    Avoids (fun _ => True)
      (program.matchActor app decl actorName matching actorReference target) := by
  unfold matchActor
  split
  · rename_i actor
    by_cases hkind : actor.kind ≠ .actor
    · rw [if_pos hkind]
      exact Avoids.ok _
    · obtain ⟨actorDecl, hactor⟩ := exists_actorDecl h (not_not.mp hkind)
      rw [if_neg hkind, hactor]
      refine Avoids.bind (Avoids.ok actorDecl) fun found _ => ?_
      split_ifs
      · exact Avoids.ok _
      · exact Avoids.fail _
      · exact Avoids.ok _
  · exact Avoids.fail _

/-- the end of a path, with a member call that does not panic -/
theorem avoids_run {graph : ModuleGraph} {segments : List String} {pathEnd : PathEnd}
    (h : pathEnd.Inside graph segments)
    {member : DeclId → String → Option (Bound ResolvedName)}
    (hmember : ∀ app actorName, graph.HasDecl app → app.kind = .app →
      ∀ result, member app actorName = some result → Avoids (fun _ => True) result)
    {result : Bound ResolvedName} (hresult : pathEnd.run member = some result) :
    Avoids (fun _ => True) result := by
  cases pathEnd with
  | done result' =>
    obtain rfl := Option.some.inj hresult
    exact h.1
  | member call => exact hmember call.1 call.2 h.1 h.2.1 result hresult

theorem avoids_matchActors {app : DeclId} (happ : app.moduleId < program.graph.modules.length)
    {member : String → DeclId → String → Option (Bound ResolvedName)}
    (hmember : ∀ reference app' actorName, program.graph.HasDecl app' → app'.kind = .app →
      ∀ result, member reference app' actorName = some result →
        Avoids (fun _ => True) result ∧ ∀ target, result = .ok target → program.graph.HasTarget target)
    (decl : AppDecl) (actorName : String) (references : List String) (matching : Option DeclId)
    {result : Bound (Option DeclId)}
    (h : program.matchActors
      (fun actorReference => program.bindSegments some (member actorReference)
        app.moduleId actorReference app.moduleId (pathSegments actorReference))
      app decl actorName matching references = some result) :
    Avoids (fun _ => True) result := by
  induction references generalizing matching with
  | nil =>
    obtain rfl := Option.some.inj h
    exact Avoids.ok _
  | cons actorReference rest ih =>
    have hinside := followPath_inside happ actorReference (pathSegments actorReference)
    unfold matchActors at h
    rw [bindSegments_run] at h
    split at h
    · cases h
    · rename_i e hrun
      obtain rfl := Option.some.inj h
      have hfault : Avoids (fun _ => True) (.error e : Bound ResolvedName) :=
        avoids_run hinside (fun app' name hdecl hkind r hr =>
          (hmember actorReference app' name hdecl hkind r hr).1) hrun
      intro message heq
      cases heq
      exact hfault message rfl
    · rename_i target hrun
      have htarget : program.graph.HasTarget target := by
        cases hend : program.followPath app.moduleId actorReference
          (pathSegments actorReference) with
        | done result' =>
          rw [hend] at hrun hinside
          exact hinside.2 target (Option.some.inj hrun)
        | member call =>
          rw [hend] at hrun hinside
          exact (hmember _ call.1 call.2 hinside.1 hinside.2.1 _ hrun).2 target rfl
      have hmatch := avoids_matchActor htarget app decl actorName matching actorReference
      split at h
      · rename_i e hactor
        obtain rfl := Option.some.inj h
        intro message heq
        cases heq
        exact hmatch message hactor
      · exact ih _ h

theorem avoids_resolveAppMember (fuel : Nat) {app : DeclId} (happ : program.graph.HasDecl app)
    (hkind : app.kind = .app) (fromModule : ModuleId) (actorName reference : String)
    {result : Bound ResolvedName}
    (h : program.resolveAppMember fuel fromModule app actorName reference = some result) :
    Avoids (fun _ => True) result := by
  induction fuel generalizing app fromModule actorName reference result with
  | zero => cases h
  | succ fuel ih =>
    obtain ⟨decl, hdecl⟩ := exists_appDecl happ hkind
    unfold resolveAppMember at h
    rw [hdecl] at h
    obtain ⟨matching, hmatching, rfl⟩ := Option.map_eq_some_iff.mp h
    refine Avoids.bind ?_ fun found _ => Avoids.okOr _ _
    refine avoids_matchActors happ.lt ?_ decl actorName decl.actors none hmatching
    intro actorReference app' actorName' happ' hkind' result' hresult'
    refine ⟨ih happ' hkind' _ _ _ hresult', fun target htarget => ?_⟩
    rw [htarget] at hresult'
    obtain ⟨member, rfl⟩ := resolveAppMember_ok hresult'
    trivial

theorem avoids_bindExportPath (fuel : Nat) {fromModule : ModuleId}
    (h : fromModule < program.graph.modules.length) (segments : List String) (reference : String)
    {result : Bound ResolvedName}
    (hresult : program.bindExportPath fuel fromModule segments reference = some result) :
    Avoids (fun _ => True) result := by
  unfold bindExportPath at hresult
  rw [bindSegments_run] at hresult
  exact avoids_run (followPath_inside h reference segments)
    (fun app actorName happ hkind result' hresult' =>
      avoids_resolveAppMember fuel happ hkind fromModule actorName reference hresult') hresult

/-! ## termination -/

/-- every path is bound to a target or ends with an error, after finitely many steps -/
def BindsEveryPath (program : ResolvedExports) : Prop :=
  ∀ fromModule < program.graph.modules.length, ∀ segments reference, ∃ fuel,
    (∃ target, program.bindExportPath fuel fromModule segments reference = some (.ok target)) ∨
      ∃ e, program.bindExportPath fuel fromModule segments reference = some (.error (.error e))

theorem bindsEveryPath_iff :
    BindsEveryPath program ↔ ∀ fromModule < program.graph.modules.length, ∀ segments reference,
      ∃ fuel, (program.bindExportPath fuel fromModule segments reference).isSome = true := by
  refine forall₄_congr fun fromModule hfrom segments reference => exists_congr fun fuel => ?_
  constructor
  · rintro (⟨target, h⟩ | ⟨e, h⟩) <;> rw [h] <;> rfl
  · intro h
    obtain ⟨result, hresult⟩ := Option.isSome_iff_exists.mp h
    have havoids := avoids_bindExportPath fuel hfrom segments reference hresult
    cases result with
    | ok target => exact .inl ⟨target, hresult⟩
    | error fault =>
      cases fault with
      | error e => exact .inr ⟨e, hresult⟩
      | panic message => exact absurd trivial (havoids message rfl)

/-- **every path is bound or fails in finitely many steps if and only if no member call leads back
to itself** -/
theorem bindExportPath_terminates_iff (program : ResolvedExports) :
    BindsEveryPath program ↔
      ¬ ∃ call, Relation.TransGen (Chain.Leads program.nextCall) call call := by
  rw [bindsEveryPath_iff, ← Chain.stops_forall_iff program.nextCall _ fun _ _ => mem_calls]
  constructor
  · intro hpaths call
    cases hnext : program.nextCall call with
    | none => exact ⟨1, Chain.stops_succ_of_none _ hnext 0⟩
    | some call' =>
      -- the reference that leads to the next call is a path of its own
      obtain ⟨decl, happ, reference, _, hfollow⟩ := nextCall_some hnext
      obtain ⟨fuel, hfuel⟩ := hpaths call.1.moduleId (appDecl_lt happ) (pathSegments reference)
        reference
      refine ⟨fuel + 1, ?_⟩
      rw [Chain.stops_succ_of_some _ hnext]
      exact (isSome_bindExportPath _ _ _ _).mp hfuel call' hfollow
  · intro hcalls fromModule _ segments reference
    cases hend : program.followPath fromModule reference segments with
    | done result =>
      refine ⟨0, (isSome_bindExportPath _ _ _ _).mpr fun call hcall => ?_⟩
      rw [hend] at hcall
      cases hcall
    | member call =>
      obtain ⟨fuel, hfuel⟩ := hcalls call
      refine ⟨fuel, (isSome_bindExportPath _ _ _ _).mpr fun call' hcall => ?_⟩
      rw [hend, PathEnd.member.injEq] at hcall
      exact hcall ▸ hfuel

/-! ## an app that is its own member -/

/-- `app A { actor A::X; }` -/
def selfMemberGraph : ModuleGraph where
  modules := [⟨"self.ag", [], [], [], [], [], [⟨"A", ["A::X"]⟩]⟩]
  imports := [[]]
  length_eq := rfl
  targets_lt := by
    intro moduleImports himports i hi
    rw [List.mem_singleton.mp himports] at hi
    exact absurd hi List.not_mem_nil

def selfMemberTable : NamespaceTable := ⟨[BTreeMap.insert "A" (.declaration ⟨0, .app, 0⟩) ∅]⟩

def selfMember : ResolvedExports where
  graph := selfMemberGraph
  table := selfMemberTable
  table_eq := by
    have hinitial : initialCandidates selfMemberGraph =
        .ok [MultiMap.add "A" (.declaration ⟨0, .app, 0⟩) ∅] := rfl
    have hclosed : closeCandidates selfMemberGraph.imports
        [MultiMap.add "A" (.declaration ⟨0, .app, 0⟩) ∅] =
          [MultiMap.add "A" (.declaration ⟨0, .app, 0⟩) ∅] := Saturate.saturate_of_eq _ rfl
    refine bind_eq_ok.mpr ⟨_, hinitial, bind_eq_ok.mpr ⟨selfMemberTable.exports, ?_, rfl⟩⟩
    rw [hclosed]
    rfl

/-- the path `A::X` has no result after any number of steps -/
theorem selfMember_diverges :
    (∀ fuel, selfMember.bindExportPath fuel 0 ["A", "X"] "A::X" = none) ∧
      ¬ BindsEveryPath selfMember := by
  have hnext : selfMember.nextCall (⟨0, .app, 0⟩, "X") = some (⟨0, .app, 0⟩, "X") := by
    decide +kernel
  have hfollow : selfMember.followPath 0 "A::X" ["A", "X"] = .member (⟨0, .app, 0⟩, "X") := rfl
  have hstops : ∀ fuel, Chain.stops selfMember.nextCall fuel (⟨0, .app, 0⟩, "X") = false := by
    intro fuel
    induction fuel with
    | zero => rfl
    | succ fuel ih => rw [Chain.stops_succ_of_some _ hnext, ih]
  have hnone : ∀ fuel, selfMember.bindExportPath fuel 0 ["A", "X"] "A::X" = none := by
    intro fuel
    rw [← Option.not_isSome_iff_eq_none, isSome_bindExportPath]
    intro h
    have hstop := h _ hfollow
    rw [hstops] at hstop
    cases hstop
  refine ⟨hnone, fun hbinds => ?_⟩
  obtain ⟨fuel, h⟩ := hbinds 0 (by decide) ["A", "X"] "A::X"
  rw [hnone] at h
  simp at h

end ResolvedExports

end Argent.Resolve
