import Argent.Base.Index
import Argent.Resolve.AppGraph

/-!
# The order of apps: when there is one

* `DependsOn`            an app's declarations reference an actor of another app;
* `sourceUnit_ok`        what a successful step of the walk has found for its app;
* `AppGraphPlan.new_orders`      **the walk succeeds if and only if the apps that are reached have no
                         cycle, no two files for one name and no actor name twice, and then it
                         lists each of them once, after its dependencies**.
-/

set_option linter.unusedSectionVars false

namespace Argent.Resolve
open Argent.Fallible

namespace ResolvedModules
variable (resolved : ResolvedModules)

/-- the file of a source app is in the program and declares the app -/
def Declares (a : SourceApp) (root : ModuleId) (app : DeclId) : Prop :=
  resolved.moduleIdForPath a.source = some root ∧ (resolved.withRoot root).rootApp a.app = .ok app

/-- the declarations from which an app is compiled: those that its module exports, other than actors
and apps, and the actors it lists -/
def StartsFrom (root : ModuleId) (app id : DeclId) : Prop :=
  (id ∈ (resolved.withRoot root).rootDeclarations ∧ id.kind ≠ .actor ∧ id.kind ≠ .app) ∨
    ∃ decl, resolved.program.appDecl app = some decl ∧ ∃ reference ∈ decl.actors,
      resolved.resolve app.moduleId reference = .ok (.declaration id)

/-- a declaration refers to another one -/
def RefersTo (id id' : DeclId) : Prop :=
  ∃ recorded, resolved.bindings.get id = some recorded ∧ id' ∈ recorded.declarations

/-- something that an app is compiled from refers to an actor of another app -/
def DependsOn (a b : SourceApp) : Prop :=
  ∃ root app start id recorded, resolved.Declares a root app ∧ resolved.StartsFrom root app start ∧
    Relation.ReflTransGen resolved.RefersTo start id ∧ resolved.bindings.get id = some recorded ∧
    ∃ member ∈ recorded.apps, resolved.appSource member.app = some b

/-- the actors that an app lists have different names -/
def ListsDistinctActors (a : SourceApp) : Prop :=
  ∀ root app decl, resolved.Declares a root app → resolved.program.appDecl app = some decl →
    ∃ names, names.Nodup ∧ List.Forall₂ (fun reference name => ∃ actor,
      resolved.resolve app.moduleId reference = .ok (.declaration actor) ∧
        resolved.declName actor = some name) decl.actors names

variable {resolved}

/-! ## the actors of an app -/

theorem resolve_of_followPath {fromModule : ModuleId} {reference : String}
    {result : Bound ResolvedName}
    (h : resolved.program.followPath fromModule reference (pathSegments reference) =
      .done result) : resolved.resolve fromModule reference = result := by
  have hbind : resolved.program.bindExportPath 1 fromModule (pathSegments reference) reference =
      some result := by
    unfold ResolvedExports.bindExportPath
    rw [ResolvedExports.bindSegments_run, h]
    rfl
  unfold resolve
  simp only [hbind, Option.get_some]

theorem resolve_actor {app : DeclId} {decl : AppDecl}
    (happ : resolved.program.appDecl app = some decl) {reference : String}
    (hreference : reference ∈ decl.actors) :
    ∃ actor, resolved.resolve app.moduleId reference = .ok (.declaration actor) ∧
      actor.kind = .actor ∧ ∃ name, resolved.declName actor = some name := by
  obtain ⟨actor, hfollow, hkind⟩ := resolved.app_actors app decl happ reference hreference
  have hinside := ResolvedExports.followPath_inside (ResolvedExports.appDecl_lt happ) reference
    (pathSegments reference)
  rw [hfollow] at hinside
  obtain ⟨m, hmodule, hindex⟩ := hinside.2 _ rfl
  refine ⟨actor, resolve_of_followPath hfollow, hkind, (m.names actor.kind)[actor.index], ?_⟩
  show (resolved.program.graph.modules[actor.moduleId]?.bind _) = _
  rw [hmodule, Option.bind_some, List.getElem?_eq_getElem hindex]

theorem expectActor_actor {app : DeclId} {reference : String} {actor : DeclId}
    (h : actor.kind = .actor) : resolved.expectActor app reference (.declaration actor) = .ok actor :=
  if_pos h

theorem expectActor_ok {app : DeclId} {reference : String} {target : ResolvedName} {actor : DeclId}
    (h : resolved.expectActor app reference target = .ok actor) : target = .declaration actor := by
  cases target with
  | declaration id =>
    by_cases hkind : id.kind = .actor
    · rw [expectActor_actor hkind] at h
      rw [Except.ok.inj h]
    · unfold expectActor at h
      simp only [if_neg hkind] at h
      cases h
  | appMember member => cases h
  | namespaceOf id => cases h

theorem mapM_actors {app : DeclId} {decl : AppDecl}
    (happ : resolved.program.appDecl app = some decl) :
    ∃ actors, (decl.actors.mapM fun reference =>
        resolved.resolve app.moduleId reference >>= resolved.expectActor app reference) =
        .ok actors ∧
      List.Forall₂ (fun reference actor =>
        resolved.resolve app.moduleId reference = .ok (.declaration actor)) decl.actors actors := by
  have hall : ∀ reference ∈ decl.actors, ∃ actor,
      (resolved.resolve app.moduleId reference >>= resolved.expectActor app reference) =
        .ok actor := by
    intro reference hreference
    obtain ⟨actor, hresolve, hkind, _⟩ := resolve_actor happ hreference
    exact ⟨actor, bind_eq_ok.mpr ⟨_, hresolve, expectActor_actor hkind⟩⟩
  obtain ⟨actors, hactors⟩ := exists_mapM_ok hall
  refine ⟨actors, hactors, forall₂_of_mapM hactors fun reference _ actor hactor => ?_⟩
  obtain ⟨target, htarget, hexpect⟩ := bind_eq_ok.mp hactor
  rw [htarget, expectActor_ok hexpect]

theorem rejectRepeatedName_of_mem {names : BTreeSet String} {actor : DeclId} {name : String}
    (hname : resolved.declName actor = some name) (h : name ∈ names) :
    ∃ e, resolved.rejectRepeatedName names actor = .error e := by
  refine ⟨.error (.new s!"selected app exports actor name `{name}` more than once"), ?_⟩
  refine bind_eq_error.mpr (.inr ⟨name, expect_eq_ok.mpr hname, ?_⟩)
  exact bind_eq_error.mpr (.inl (if_pos h))

theorem rejectRepeatedName_of_not_mem {names : BTreeSet String} {actor : DeclId} {name : String}
    (hname : resolved.declName actor = some name) (h : name ∉ names) :
    resolved.rejectRepeatedName names actor = .ok (insert name names) := by
  refine bind_eq_ok.mpr ⟨name, expect_eq_ok.mpr hname, ?_⟩
  exact check_eq_ok.mpr ⟨rejectIf_eq_ok.mpr h, rfl⟩

theorem exists_names {app : DeclId} {decl : AppDecl}
    (happ : resolved.program.appDecl app = some decl) {actors : List DeclId}
    (hactors : List.Forall₂ (fun reference actor =>
      resolved.resolve app.moduleId reference = .ok (.declaration actor)) decl.actors actors) :
    ∀ actor ∈ actors, ∃ name, resolved.declName actor = some name := by
  intro actor hactor
  obtain ⟨reference, hreference, hresolve⟩ :=
    mem_of_forall₂_left (List.Forall₂.flip hactors) hactor
  obtain ⟨actor', hresolve', _, hname⟩ := resolve_actor happ hreference
  rw [hresolve] at hresolve'
  obtain rfl : actor = actor' := ResolvedName.declaration.inj (Except.ok.inj hresolve')
  exact hname

theorem sourceName_of_declName {actor : DeclId} {name : String}
    (h : resolved.declName actor = some name) : resolved.sourceName actor = name := by
  unfold sourceName
  rw [h]
  rfl

/-- an app's actors are accepted when their names are different -/
theorem exists_appActorIds_iff {app : DeclId} {decl : AppDecl}
    (happ : resolved.program.appDecl app = some decl) :
    ∃ actors, List.Forall₂ (fun reference actor =>
        resolved.resolve app.moduleId reference = .ok (.declaration actor)) decl.actors actors ∧
      (∀ found, resolved.appActorIds app = .ok found → found = actors) ∧
      ((∃ found, resolved.appActorIds app = .ok found) ↔
        (actors.map resolved.sourceName).Nodup) := by
  obtain ⟨actors, hmapM, hactors⟩ := mapM_actors happ
  have hnames := exists_names happ hactors
  have hfresh : (∃ out, actors.foldlM resolved.rejectRepeatedName ∅ = .ok out) ↔
      (actors.map resolved.sourceName).Nodup ∧
        ∀ actor ∈ actors, resolved.sourceName actor ∉ (∅ : BTreeSet String) := exists_foldlM_fresh
    (fun actor hactor seen hin => by
      obtain ⟨name, hname⟩ := hnames actor hactor
      rw [sourceName_of_declName hname] at hin
      exact rejectRepeatedName_of_mem hname hin)
    (fun actor hactor seen hin => by
      obtain ⟨name, hname⟩ := hnames actor hactor
      rw [sourceName_of_declName hname] at hin ⊢
      exact rejectRepeatedName_of_not_mem hname hin) ∅
  have hok : ∀ found, resolved.appActorIds app = .ok found ↔
      (∃ out, actors.foldlM resolved.rejectRepeatedName ∅ = .ok out) ∧ found = actors := by
    intro found
    unfold appActorIds
    rw [happ]
    constructor
    · intro h
      obtain ⟨decl', hdecl', h⟩ := bind_eq_ok.mp h
      obtain rfl : decl = decl' := Except.ok.inj hdecl'
      obtain ⟨actors', hactors', h⟩ := bind_eq_ok.mp h
      obtain rfl : actors = actors' := Except.ok.inj (hmapM.symm.trans hactors')
      obtain ⟨out, hout, h⟩ := bind_eq_ok.mp h
      exact ⟨⟨out, hout⟩, (pure_eq_ok.mp h).symm⟩
    · rintro ⟨⟨out, hout⟩, rfl⟩
      refine bind_eq_ok.mpr ⟨decl, rfl, bind_eq_ok.mpr ⟨found, hmapM, ?_⟩⟩
      exact bind_eq_ok.mpr ⟨out, hout, rfl⟩
  refine ⟨actors, hactors, fun found h => ((hok found).mp h).2, ?_⟩
  constructor
  · rintro ⟨found, h⟩
    exact (hfresh.mp ((hok found).mp h).1).1
  · intro hnodup
    exact ⟨actors, (hok actors).mpr
      ⟨hfresh.mpr ⟨hnodup, fun _ _ => BTreeSet.not_mem_empty _⟩, rfl⟩⟩

/-! ## the dependencies of an app -/

theorem follows_references {id id' : DeclId} :
    Worklist.Follows resolved.references id id' ↔ resolved.RefersTo id id' := by
  unfold Worklist.Follows Worklist.targets references RefersTo
  rw [BTreeMap.get_mapValues]
  cases resolved.bindings.get id with
  | none => simp
  | some recorded => simp

theorem mem_declarationClosure {roots : List DeclId} {id : DeclId} :
    id ∈ resolved.declarationClosure roots ↔
      ∃ start ∈ roots, Relation.ReflTransGen resolved.RefersTo start id := by
  have hsame : Worklist.Follows resolved.references = resolved.RefersTo :=
    funext fun _ => funext fun _ => propext follows_references
  unfold declarationClosure
  rw [Worklist.mem_close, hsame]
  simp only [List.mem_reverse]

theorem mem_boundApps {id : DeclId} {member : AppMember} :
    member ∈ resolved.boundApps id ↔
      ∃ recorded, resolved.bindings.get id = some recorded ∧ member ∈ recorded.apps := by
  unfold boundApps
  cases resolved.bindings.get id with
  | none => simp
  | some recorded => simp

theorem exists_appSource {id : DeclId} {member : AppMember} (h : member ∈ resolved.boundApps id) :
    ∃ b, resolved.appSource member.app = some b := by
  obtain ⟨recorded, hget, hmember⟩ := mem_boundApps.mp h
  obtain ⟨decl, hdecl⟩ := resolved.bound_apps id recorded hget member hmember
  refine ⟨⟨resolved.program.modulePath member.app.moduleId, decl.name⟩, ?_⟩
  unfold appSource
  rw [hdecl, Option.map_some]

theorem dependencies_ok {app : DeclId} {actors : List DeclId}
    (h : resolved.appActorIds app = .ok actors) :
    ∃ found, resolved.dependencies app = .ok found ∧ ∀ b, b ∈ found ↔ ∃ start id,
      (start ∈ resolved.rootDeclarations ∧ start.kind ≠ .actor ∧ start.kind ≠ .app ∨
        start ∈ actors) ∧ Relation.ReflTransGen resolved.RefersTo start id ∧
      ∃ member ∈ resolved.boundApps id, resolved.appSource member.app = some b := by
  let roots := (resolved.rootDeclarations.filter fun id => id.kind ≠ .actor ∧ id.kind ≠ .app) ++
    actors
  let members : BTreeSet AppMember :=
    .ofList ((resolved.declarationClosure roots).toList.flatMap resolved.boundApps)
  have hmembers : resolved.referencedAppMembers app = .ok members := by
    refine bind_eq_ok.mpr ⟨resolved.declarationClosure roots, ?_, rfl⟩
    exact bind_eq_ok.mpr ⟨actors, h, rfl⟩
  have hmem : ∀ member, member ∈ members ↔
      ∃ id ∈ resolved.declarationClosure roots, member ∈ resolved.boundApps id := by
    intro member
    rw [BTreeSet.mem_ofList, List.mem_flatMap]
    rfl
  have hsources : ∀ member ∈ members.toList, ∃ b,
      (expect (resolved.appSource member.app) "index out of bounds" : Bound SourceApp) = .ok b := by
    intro member hmember
    obtain ⟨id, _, hbound⟩ := (hmem member).mp hmember
    obtain ⟨b, hb⟩ := exists_appSource hbound
    exact ⟨b, expect_eq_ok.mpr hb⟩
  obtain ⟨apps, happs⟩ := exists_mapM_ok hsources
  refine ⟨.ofList apps, ?_, fun b => ?_⟩
  · exact bind_eq_ok.mpr ⟨members, hmembers, bind_eq_ok.mpr ⟨apps, happs, rfl⟩⟩
  · rw [BTreeSet.mem_ofList, mem_iff_of_mapM_ok happs]
    constructor
    · rintro ⟨member, hmember, hb⟩
      obtain ⟨id, hid, hbound⟩ := (hmem member).mp hmember
      obtain ⟨start, hstart, hreach⟩ := mem_declarationClosure.mp hid
      refine ⟨start, id, ?_, hreach, member, hbound, expect_eq_ok.mp hb⟩
      obtain hstart | hstart := List.mem_append.mp hstart
      · obtain ⟨hroot, hkind⟩ := List.mem_filter.mp hstart
        exact .inl ⟨hroot, of_decide_eq_true hkind⟩
      · exact .inr hstart
    · rintro ⟨start, id, hstart, hreach, member, hbound, hb⟩
      refine ⟨member, (hmem member).mpr ⟨id, ?_, hbound⟩, expect_eq_ok.mpr hb⟩
      refine mem_declarationClosure.mpr ⟨start, ?_, hreach⟩
      obtain ⟨hroot, hkind⟩ | hstart := hstart
      · exact List.mem_append_left _ (List.mem_filter.mpr ⟨hroot, decide_eq_true hkind⟩)
      · exact List.mem_append_right _ hstart

theorem rootApp_appDecl {a : SourceApp} {root : ModuleId} {app : DeclId}
    (h : resolved.Declares a root app) : ∃ decl, resolved.program.appDecl app = some decl := by
  obtain ⟨_, h⟩ := h
  unfold rootApp at h
  split at h
  · cases h
  · rename_i m hmodule
    obtain ⟨index, hindex, rfl⟩ := Option.map_eq_some_iff.mp (okOr_eq_ok.mp h)
    obtain ⟨hlt, _⟩ := List.findIdx?_eq_some_iff_getElem.mp hindex
    refine ⟨m.apps[index], ?_⟩
    have hmodule' : resolved.program.graph.modules[root]? = some m := hmodule
    show (if SymbolKind.app = .app then _ else _) = _
    rw [if_pos rfl]
    show (resolved.program.graph.modules[root]?).bind _ = _
    rw [hmodule', Option.bind_some, List.getElem?_eq_getElem hlt]

theorem Declares.unique {a : SourceApp} {root root' : ModuleId} {app app' : DeclId}
    (h : resolved.Declares a root app) (h' : resolved.Declares a root' app') :
    root = root' ∧ app = app' := by
  obtain ⟨hroot, happ⟩ := h
  obtain ⟨hroot', happ'⟩ := h'
  obtain rfl : root = root' := Option.some.inj (hroot.symm.trans hroot')
  exact ⟨rfl, Except.ok.inj (happ.symm.trans happ')⟩

/-- different names, read off the actors -/
theorem listsDistinctActors_iff {a : SourceApp} {root : ModuleId} {app : DeclId} {decl : AppDecl}
    (hdeclares : resolved.Declares a root app) (happ : resolved.program.appDecl app = some decl)
    {actors : List DeclId} (hactors : List.Forall₂ (fun reference actor =>
      resolved.resolve app.moduleId reference = .ok (.declaration actor)) decl.actors actors) :
    resolved.ListsDistinctActors a ↔ (actors.map resolved.sourceName).Nodup := by
  constructor
  · intro h
    obtain ⟨names, hnodup, hnames⟩ := h root app decl hdeclares happ
    have hbeside : List.Forall₂ (fun actor name => resolved.sourceName actor = name) actors names :=
      forall₂_beside hactors hnames fun reference _ actor name hresolve hname => by
        obtain ⟨actor', hresolve', hname⟩ := hname
        rw [hresolve] at hresolve'
        obtain rfl := ResolvedName.declaration.inj (Except.ok.inj hresolve')
        exact sourceName_of_declName hname
    have hmap : actors.map resolved.sourceName = names :=
      List.forall₂_eq_eq_eq ▸ List.forall₂_map_left_iff.mpr hbeside
    rwa [hmap]
  · intro hnodup root' app' decl' hdeclares' happ'
    obtain ⟨rfl, rfl⟩ := hdeclares.unique hdeclares'
    obtain rfl : decl = decl' := Option.some.inj (happ.symm.trans happ')
    refine ⟨actors.map resolved.sourceName, hnodup, List.forall₂_map_right_iff.mpr ?_⟩
    refine forall₂_beside (List.forall₂_same.mpr fun _ _ => rfl) hactors ?_
    rintro reference hreference _ actor rfl hresolve
    obtain ⟨actor', hresolve', _, name, hname⟩ := resolve_actor happ hreference
    rw [hresolve] at hresolve'
    obtain rfl := ResolvedName.declaration.inj (Except.ok.inj hresolve')
    exact ⟨actor, hresolve, hname.trans (congrArg some (sourceName_of_declName hname).symm)⟩

/-- a step of the walk succeeds when the app is declared and its actors have different names -/
theorem exists_sourceUnit_iff {a : SourceApp} :
    (∃ unit, resolved.sourceUnit a = .ok unit) ↔
      (∃ root app, resolved.Declares a root app) ∧ resolved.ListsDistinctActors a := by
  constructor
  · rintro ⟨unit, h⟩
    obtain ⟨root, hroot, h⟩ := bind_eq_ok.mp h
    obtain ⟨app, happ, h⟩ := bind_eq_ok.mp h
    obtain ⟨found, hfound, _⟩ := bind_eq_ok.mp h
    have hdeclares : resolved.Declares a root app := ⟨okOr_eq_ok.mp hroot, happ⟩
    refine ⟨⟨root, app, hdeclares⟩, ?_⟩
    obtain ⟨decl, hdecl⟩ := rootApp_appDecl hdeclares
    obtain ⟨members, hmembers, _⟩ := bind_eq_ok.mp hfound
    obtain ⟨declarations, hdeclarations, _⟩ := bind_eq_ok.mp hmembers
    obtain ⟨actorIds, hactorIds, _⟩ := bind_eq_ok.mp hdeclarations
    obtain ⟨actors, hactors, _, hiff⟩ := exists_appActorIds_iff hdecl
    exact (listsDistinctActors_iff hdeclares hdecl hactors).mpr (hiff.mp ⟨actorIds, hactorIds⟩)
  · rintro ⟨⟨root, app, hdeclares⟩, hdistinct⟩
    obtain ⟨decl, hdecl⟩ := rootApp_appDecl hdeclares
    obtain ⟨actors, hactors, _, hiff⟩ := exists_appActorIds_iff hdecl
    obtain ⟨actorIds, hactorIds⟩ :=
      hiff.mpr ((listsDistinctActors_iff hdeclares hdecl hactors).mp hdistinct)
    obtain ⟨found, hfound, _⟩ :=
      @dependencies_ok (resolved.withRoot root) app _ hactorIds
    refine ⟨⟨a, root, found.toList⟩, bind_eq_ok.mpr ⟨root, okOr_eq_ok.mpr hdeclares.1, ?_⟩⟩
    exact bind_eq_ok.mpr ⟨app, hdeclares.2, bind_eq_ok.mpr ⟨found, hfound, rfl⟩⟩

theorem sourceUnit_ok {a : SourceApp} {unit : AppBuildUnit}
    (h : resolved.sourceUnit a = .ok unit) :
    unit.sourceApp = a ∧ ∀ b, b ∈ unit.dependencies ↔ resolved.DependsOn a b := by
  obtain ⟨root, hroot, h⟩ := bind_eq_ok.mp h
  obtain ⟨app, happ, h⟩ := bind_eq_ok.mp h
  obtain ⟨found, hfound, h⟩ := bind_eq_ok.mp h
  obtain rfl := pure_eq_ok.mp h
  have hdeclares : resolved.Declares a root app := ⟨okOr_eq_ok.mp hroot, happ⟩
  obtain ⟨decl, hdecl⟩ := rootApp_appDecl hdeclares
  obtain ⟨members, hmembers, _⟩ := bind_eq_ok.mp hfound
  obtain ⟨declarations, hdeclarations, _⟩ := bind_eq_ok.mp hmembers
  obtain ⟨actorIds, hactorIds, _⟩ := bind_eq_ok.mp hdeclarations
  obtain ⟨actors, hactors, hsame, _⟩ := exists_appActorIds_iff hdecl
  obtain rfl : actorIds = actors := hsame actorIds hactorIds
  obtain ⟨found', hfound', hmem⟩ :=
    @dependencies_ok (resolved.withRoot root) app _ hactorIds
  obtain rfl : found = found' := Except.ok.inj (hfound.symm.trans hfound')
  have hstarts : ∀ start, (start ∈ (resolved.withRoot root).rootDeclarations ∧
      start.kind ≠ .actor ∧ start.kind ≠ .app ∨ start ∈ actorIds) ↔
        resolved.StartsFrom root app start := by
    intro start
    refine or_congr_right ⟨fun hstart => ?_, ?_⟩
    · obtain ⟨reference, hreference, hresolve⟩ :=
        mem_of_forall₂_left (List.Forall₂.flip hactors) hstart
      exact ⟨decl, hdecl, reference, hreference, hresolve⟩
    · rintro ⟨decl', hdecl', reference, hreference, hresolve⟩
      obtain rfl : decl = decl' := Option.some.inj (hdecl.symm.trans hdecl')
      obtain ⟨actor, hactor, hresolve'⟩ := mem_of_forall₂_left hactors hreference
      rw [hresolve] at hresolve'
      rwa [ResolvedName.declaration.inj (Except.ok.inj hresolve')]
  refine ⟨rfl, fun b => ?_⟩
  rw [BTreeSet.mem_toList, hmem]
  constructor
  · rintro ⟨start, id, hstart, hreach, member, hbound, hb⟩
    obtain ⟨recorded, hget, hmember⟩ := mem_boundApps.mp hbound
    exact ⟨root, app, start, id, recorded, hdeclares, (hstarts start).mp hstart, hreach, hget,
      member, hmember, hb⟩
  · rintro ⟨root', app', start, id, recorded, hdeclares', hstart, hreach, hget, member, hmember, hb⟩
    obtain ⟨rfl, rfl⟩ := hdeclares.unique hdeclares'
    exact ⟨start, id, (hstarts start).mpr hstart, hreach, member,
      mem_boundApps.mpr ⟨recorded, hget, hmember⟩, hb⟩

theorem mem_sourceApps {a : SourceApp} {unit : AppBuildUnit}
    (h : resolved.sourceUnit a = .ok unit) : a ∈ resolved.sourceApps := by
  obtain ⟨⟨root, app, hroot, happ⟩, _⟩ := exists_sourceUnit_iff.mp ⟨unit, h⟩
  unfold moduleIdForPath at hroot
  obtain ⟨hlt, hpath, _⟩ := List.findIdx?_eq_some_iff_getElem.mp hroot
  unfold rootApp at happ
  have hmodule : (resolved.withRoot root).graph.modules[(resolved.withRoot root).root]? =
      some resolved.graph.modules[root] := List.getElem?_eq_getElem hlt
  rw [hmodule] at happ
  obtain ⟨index, hindex, _⟩ := Option.map_eq_some_iff.mp (okOr_eq_ok.mp happ)
  obtain ⟨hlt', hname, _⟩ := List.findIdx?_eq_some_iff_getElem.mp hindex
  refine List.mem_flatMap.mpr ⟨_, List.getElem_mem hlt, List.mem_map.mpr
    ⟨_, List.getElem_mem hlt', ?_⟩⟩
  rw [beq_iff_eq.mp hpath, beq_iff_eq.mp hname]

/-! ## the walk -/

/-- an app whose step succeeds leads to its dependencies -/
def Leads (resolved : ResolvedModules) (a b : SourceApp) : Prop :=
  ∃ unit, resolved.sourceUnit a = .ok unit ∧ b ∈ unit.dependencies

/-- what makes the walk from `first` fail: a cycle, two files for one name, or a failing step -/
def Obstacle (resolved : ResolvedModules) (first : SourceApp) : Prop :=
  (∃ a, Relation.ReflTransGen resolved.Leads first a ∧ Relation.TransGen resolved.Leads a a) ∨
  (∃ a b, Relation.ReflTransGen resolved.Leads first a ∧
    Relation.ReflTransGen resolved.Leads first b ∧ a.app = b.app ∧ a.source ≠ b.source) ∨
  ∃ a, Relation.ReflTransGen resolved.Leads first a ∧ ¬ ∃ unit, resolved.sourceUnit a = .ok unit

/-- what holds of the planner between two visits -/
structure Planned (resolved : ResolvedModules) (first : SourceApp) (planner : AppGraphPlanner) :
    Prop where
  claimed : ∀ a mark, planner.visits.get a = some mark →
    planner.appSources.get a.app = some a.source
  reached : ∀ source app, planner.appSources.get app = some source →
    Relation.ReflTransGen resolved.Leads first ⟨source, app⟩
  active : ∀ a place, planner.visits.get a = some (.active place) ↔ planner.stack[place]? = some a
  complete : ∀ a, planner.visits.get a = some .complete ↔
    a ∈ planner.order.map AppBuildUnit.sourceApp
  ordered : Topological resolved.Leads (planner.order.map AppBuildUnit.sourceApp)
  units : ∀ unit ∈ planner.order, resolved.sourceUnit unit.sourceApp = .ok unit
  opened : ∀ a ∈ planner.stack, ∃ unit, resolved.sourceUnit a = .ok unit

theorem planned_empty (first : SourceApp) : Planned resolved first .empty where
  claimed := fun _ _ h => by cases h
  reached := fun _ _ h => by cases h
  active := fun _ _ => ⟨fun h => (by cases h), fun h => (by cases h)⟩
  complete := fun _ => ⟨fun h => (by cases h), fun h => absurd h List.not_mem_nil⟩
  ordered := Topological.nil
  units := fun _ h => absurd h List.not_mem_nil
  opened := fun _ h => absurd h List.not_mem_nil

namespace Planned
variable {first : SourceApp} {planner : AppGraphPlanner} (h : Planned resolved first planner)
include h

theorem visited_reached {a : SourceApp} {mark : Visit} (ha : planner.visits.get a = some mark) :
    Relation.ReflTransGen resolved.Leads first a := h.reached _ _ (h.claimed a mark ha)

theorem stack_nodup : planner.stack.Nodup := by
  rw [List.nodup_iff_getElem?_ne_getElem?]
  intro i j hij hj heq
  have hi : i < planner.stack.length := Nat.lt_trans hij hj
  have hactive := (h.active planner.stack[i] i).mpr (List.getElem?_eq_getElem hi)
  have hactive' := (h.active planner.stack[i] j).mpr
    (heq.symm.trans (List.getElem?_eq_getElem hi))
  rw [hactive] at hactive'
  have hsame : i = j := Visit.active.inj (Option.some.inj hactive')
  exact absurd hsame (Nat.ne_of_lt hij)

/-- at most one visit for each app is open -/
theorem stack_length : planner.stack.length ≤ resolved.sourceApps.length := by
  refine (List.subperm_of_subset h.stack_nodup fun a ha => ?_).length_le
  obtain ⟨unit, hunit⟩ := h.opened a ha
  exact mem_sourceApps hunit

theorem claim {a : SourceApp} (ha : Relation.ReflTransGen resolved.Leads first a) :
    Planned resolved first
      { planner with appSources := planner.appSources.insert a.app a.source } ∨
      ∃ source, planner.appSources.get a.app = some source ∧ source ≠ a.source := by
  by_cases hconflict : ∃ source, planner.appSources.get a.app = some source ∧ source ≠ a.source
  · exact .inr hconflict
  · refine .inl ⟨fun b mark hb => ?_, fun source app hget => ?_, h.active, h.complete, h.ordered,
      h.units, h.opened⟩
    · show (planner.appSources.insert a.app a.source).get b.app = _
      rw [BTreeMap.get_insert]
      have hsource := h.claimed b mark hb
      by_cases hname : b.app = a.app
      · rw [if_pos hname]
        by_contra hne
        refine hconflict ⟨b.source, hname ▸ hsource, fun heq => hne ?_⟩
        rw [heq]
      · rw [if_neg hname, hsource]
    · have hget' : (planner.appSources.insert a.app a.source).get app = some source := hget
      rw [BTreeMap.get_insert] at hget'
      by_cases hname : app = a.app
      · rw [if_pos hname] at hget'
        obtain rfl := Option.some.inj hget'
        rw [hname]
        exact ha
      · rw [if_neg hname] at hget'
        exact h.reached source app hget'

/-- a visit that enters its app, and whether the app is planned already -/
theorem enter_ok {a : SourceApp} (ha : Relation.ReflTransGen resolved.Leads first a)
    {entered : AppGraphPlanner} {done : Bool} (henter : planner.enter a = .ok (entered, done)) :
    Planned resolved first entered ∧ entered.stack = planner.stack ∧
      entered.order = planner.order ∧ entered.appSources.get a.app = some a.source ∧
      (done = true → a ∈ planner.order.map AppBuildUnit.sourceApp) ∧
      (done = false → entered.visits.get a = none) := by
  obtain ⟨claimed, hclaim, hmark⟩ := bind_eq_ok.mp henter
  have hclaimed : claimed =
      { planner with appSources := planner.appSources.insert a.app a.source } ∧
      ¬ ∃ source, planner.appSources.get a.app = some source ∧ source ≠ a.source := by
    unfold AppGraphPlanner.claimSource at hclaim
    split at hclaim
    · rename_i hnone
      refine ⟨(Except.ok.inj hclaim).symm, fun ⟨source, hsource, _⟩ => ?_⟩
      rw [hnone] at hsource
      cases hsource
    · rename_i previous hprevious
      by_cases hne : previous ≠ a.source
      · rw [if_pos hne] at hclaim
        cases hclaim
      · rw [if_neg hne] at hclaim
        refine ⟨(Except.ok.inj hclaim).symm, fun ⟨source, hsource, hsource'⟩ => hne ?_⟩
        rw [hprevious] at hsource
        rwa [Option.some.inj hsource]
  obtain ⟨rfl, hconflict⟩ := hclaimed
  have hplanned := (h.claim ha).resolve_right hconflict
  have hsource : (planner.appSources.insert a.app a.source).get a.app = some a.source :=
    BTreeMap.get_insert_self _ _ _
  simp only at hmark
  split at hmark
  · rename_i hvisit
    obtain ⟨rfl, rfl⟩ := Prod.mk.inj (pure_eq_ok.mp hmark)
    exact ⟨hplanned, rfl, rfl, hsource, fun hfalse => (by cases hfalse), fun _ => hvisit⟩
  · rename_i hvisit
    obtain ⟨rfl, rfl⟩ := Prod.mk.inj (pure_eq_ok.mp hmark)
    exact ⟨hplanned, rfl, rfl, hsource, fun _ => (hplanned.complete a).mp hvisit,
      fun hfalse => by cases hfalse⟩
  · cases hmark

/-- a visit that is refused: by another file of the app's name, or by an open visit -/
theorem enter_error {a : SourceApp} (ha : Relation.ReflTransGen resolved.Leads first a)
    (hpath : ∀ x ∈ planner.stack, Relation.TransGen resolved.Leads x a) {e : Fault ArgentError}
    (henter : planner.enter a = .error e) : Obstacle resolved first := by
  obtain hclaim | ⟨claimed, hclaim, hmark⟩ := bind_eq_error.mp henter
  · unfold AppGraphPlanner.claimSource at hclaim
    split at hclaim
    · cases hclaim
    · rename_i previous hprevious
      by_cases hne : previous ≠ a.source
      · exact .inr (.inl ⟨⟨previous, a.app⟩, a, h.reached _ _ hprevious, ha, rfl, hne⟩)
      · rw [if_neg hne] at hclaim
        cases hclaim
  · have hvisits : claimed.visits = planner.visits := by
      unfold AppGraphPlanner.claimSource at hclaim
      split at hclaim
      · rw [← Except.ok.inj hclaim]
      · split_ifs at hclaim
        · cases hclaim
        · rw [← Except.ok.inj hclaim]
    rw [hvisits] at hmark
    split at hmark
    · cases hmark
    · cases hmark
    · rename_i place hvisit
      have hstack : a ∈ planner.stack := List.mem_of_getElem? ((h.active a place).mp hvisit)
      exact .inl ⟨a, ha, hpath a hstack⟩

/-- the app is open while its dependencies are visited -/
theorem start {a : SourceApp} {unit : AppBuildUnit} (hunit : resolved.sourceUnit a = .ok unit)
    (hsource : planner.appSources.get a.app = some a.source)
    (hnew : planner.visits.get a = none) : Planned resolved first (planner.start a) := by
  have hstack : a ∉ planner.stack := fun hin => by
    obtain ⟨place, hplace⟩ := List.mem_iff_getElem?.mp hin
    rw [(h.active a place).mpr hplace] at hnew
    cases hnew
  refine ⟨fun b mark hb => ?_, h.reached, fun b place => ?_, fun b => ?_, h.ordered, h.units,
    fun b hb => ?_⟩
  · have hb' : (planner.visits.insert a (.active planner.stack.length)).get b = some mark := hb
    rw [BTreeMap.get_insert] at hb'
    by_cases hba : b = a
    · rw [hba]
      exact hsource
    · rw [if_neg hba] at hb'
      exact h.claimed b mark hb'
  · show (planner.visits.insert a (.active planner.stack.length)).get b = _ ↔
      (planner.stack ++ [a])[place]? = some b
    rw [BTreeMap.get_insert]
    by_cases hba : b = a
    · subst hba
      rw [if_pos rfl, Option.some.injEq, Visit.active.injEq]
      constructor
      · rintro rfl
        exact List.getElem?_concat_length
      · intro hget
        obtain hlt | hge := Nat.lt_or_ge place planner.stack.length
        · rw [List.getElem?_append_left hlt] at hget
          exact absurd (List.mem_of_getElem? hget) hstack
        · obtain ⟨hplace, _⟩ := List.getElem?_eq_some_iff.mp hget
          rw [List.length_append, List.length_singleton] at hplace
          omega
    · rw [if_neg hba, h.active]
      obtain hlt | hge := Nat.lt_or_ge place planner.stack.length
      · rw [List.getElem?_append_left hlt]
      · rw [List.getElem?_eq_none hge, List.getElem?_append_right hge]
        constructor
        · intro hnone
          cases hnone
        · intro hget
          obtain rfl := List.mem_singleton.mp (List.mem_of_getElem? hget)
          exact absurd rfl hba
  · show (planner.visits.insert a (.active planner.stack.length)).get b = _ ↔ _
    rw [BTreeMap.get_insert]
    by_cases hba : b = a
    · rw [if_pos hba]
      refine ⟨fun heq => (by cases heq), fun hin => ?_⟩
      have hcomplete := (h.complete a).mpr (hba ▸ hin)
      rw [hnew] at hcomplete
      cases hcomplete
    · rw [if_neg hba]
      exact h.complete b
  · obtain hb | hb := List.mem_append.mp hb
    · exact h.opened b hb
    · rw [List.mem_singleton.mp hb]
      exact ⟨unit, hunit⟩

/-- the app is planned when its dependencies are -/
theorem finish {a : SourceApp} {unit : AppBuildUnit} {below : List SourceApp}
    (hunit : resolved.sourceUnit a = .ok unit) (hstack : planner.stack = below ++ [a])
    (hdependencies : ∀ b ∈ unit.dependencies, b ∈ planner.order.map AppBuildUnit.sourceApp) :
    Planned resolved first (planner.finish unit) := by
  obtain ⟨rfl, _⟩ := sourceUnit_ok hunit
  have htop : planner.stack[below.length]? = some unit.sourceApp := by
    rw [hstack]
    exact List.getElem?_concat_length
  have hactive := (h.active _ _).mpr htop
  have hbelow : planner.stack.dropLast = below := by
    rw [hstack]
    exact List.dropLast_concat
  have hnew : unit.sourceApp ∉ planner.order.map AppBuildUnit.sourceApp := fun hin => by
    rw [← h.complete, hactive] at hin
    cases hin
  have horder : (planner.order ++ [unit]).map AppBuildUnit.sourceApp =
      planner.order.map AppBuildUnit.sourceApp ++ [unit.sourceApp] := by
    rw [List.map_append, List.map_singleton]
  refine ⟨fun b mark hb => ?_, h.reached, fun b place => ?_, fun b => ?_, ?_, fun u hu => ?_,
    fun b hb => ?_⟩
  · have hb' : (planner.visits.insert unit.sourceApp .complete).get b = some mark := hb
    rw [BTreeMap.get_insert] at hb'
    by_cases hba : b = unit.sourceApp
    · rw [hba]
      exact h.claimed _ _ hactive
    · rw [if_neg hba] at hb'
      exact h.claimed b mark hb'
  · show (planner.visits.insert unit.sourceApp .complete).get b = _ ↔
      planner.stack.dropLast[place]? = some b
    rw [BTreeMap.get_insert, hbelow]
    by_cases hba : b = unit.sourceApp
    · subst hba
      rw [if_pos rfl]
      refine ⟨fun heq => (by cases heq), fun hget => ?_⟩
      have hlt := (List.getElem?_eq_some_iff.mp hget).1
      have hplace : planner.stack[place]? = some unit.sourceApp := by
        rw [hstack, List.getElem?_append_left hlt, hget]
      have hsame := (h.active _ _).mpr hplace
      rw [hactive] at hsame
      obtain rfl := Visit.active.inj (Option.some.inj hsame)
      exact absurd hlt (lt_irrefl _)
    · rw [if_neg hba, h.active, hstack]
      obtain hlt | hge := Nat.lt_or_ge place below.length
      · rw [List.getElem?_append_left hlt]
      · rw [List.getElem?_eq_none hge, List.getElem?_append_right hge]
        constructor
        · intro hget
          obtain rfl := List.mem_singleton.mp (List.mem_of_getElem? hget)
          exact absurd rfl hba
        · intro hnone
          cases hnone
  · show (planner.visits.insert unit.sourceApp .complete).get b = _ ↔
      b ∈ (planner.order ++ [unit]).map AppBuildUnit.sourceApp
    rw [BTreeMap.get_insert, horder, List.mem_append, List.mem_singleton]
    by_cases hba : b = unit.sourceApp
    · rw [if_pos hba]
      exact ⟨fun _ => .inr hba, fun _ => rfl⟩
    · rw [if_neg hba, h.complete]
      exact ⟨.inl, fun hor => hor.resolve_right hba⟩
  · show Topological resolved.Leads ((planner.order ++ [unit]).map AppBuildUnit.sourceApp)
    rw [horder]
    refine h.ordered.snoc hnew fun b hb => ?_
    obtain ⟨unit', hunit', hb⟩ := hb
    obtain rfl : unit = unit' := Except.ok.inj (hunit.symm.trans hunit')
    exact hdependencies b hb
  · obtain hu | hu := List.mem_append.mp hu
    · exact h.units u hu
    · rw [List.mem_singleton.mp hu]
      exact hunit
  · have hb' : b ∈ planner.stack.dropLast := hb
    exact h.opened b (List.mem_of_mem_dropLast hb')

end Planned

/-! ## one visit and all visits -/

/-- what a visit does to a planner, when `fuel` is left -/
structure Visits (resolved : ResolvedModules) (first : SourceApp) (fuel : Nat) (a : SourceApp)
    (planner : AppGraphPlanner) (result : Option (Bound AppGraphPlanner)) : Prop where
  planned : ∀ after, result = some (.ok after) → Planned resolved first after ∧
    after.stack = planner.stack ∧ (∃ more, after.order = planner.order ++ more) ∧
    a ∈ after.order.map AppBuildUnit.sourceApp ∧
    (a ∉ planner.order.map AppBuildUnit.sourceApp →
      after.order.getLast?.map AppBuildUnit.sourceApp = some a)
  refused : ∀ e, result = some (.error e) → Obstacle resolved first
  ends : resolved.sourceApps.length < fuel + planner.stack.length → ∃ r, result = some r

/-- the loop over dependencies, when each visit does what it should -/
theorem visitAll_spec {first : SourceApp} {fuel : Nat}
    (hvisit : ∀ a planner, Planned resolved first planner →
      Relation.ReflTransGen resolved.Leads first a →
      (∀ x ∈ planner.stack, Relation.TransGen resolved.Leads x a) →
      Visits resolved first fuel a planner (visit resolved fuel a planner))
    (dependencies : List SourceApp) {planner : AppGraphPlanner}
    (h : Planned resolved first planner)
    (hreached : ∀ a ∈ dependencies, Relation.ReflTransGen resolved.Leads first a)
    (hpath : ∀ a ∈ dependencies, ∀ x ∈ planner.stack, Relation.TransGen resolved.Leads x a) :
    (∀ after, visitAll (visit resolved fuel) dependencies planner = some (.ok after) →
      Planned resolved first after ∧ after.stack = planner.stack ∧
      (∃ more, after.order = planner.order ++ more) ∧
      ∀ a ∈ dependencies, a ∈ after.order.map AppBuildUnit.sourceApp) ∧
    (∀ e, visitAll (visit resolved fuel) dependencies planner = some (.error e) →
      Obstacle resolved first) ∧
    (resolved.sourceApps.length < fuel + planner.stack.length →
      ∃ r, visitAll (visit resolved fuel) dependencies planner = some r) := by
  induction dependencies generalizing planner with
  | nil =>
    refine ⟨fun after hafter => ?_, fun e he => ?_, fun _ => ⟨.ok planner, rfl⟩⟩
    · obtain rfl := Except.ok.inj (Option.some.inj hafter)
      exact ⟨h, rfl, ⟨[], (List.append_nil _).symm⟩, fun a ha => absurd ha List.not_mem_nil⟩
    · cases he
  | cons a rest ih =>
    have hspec := hvisit a planner h (hreached a List.mem_cons_self) (hpath a List.mem_cons_self)
    unfold visitAll
    cases hresult : visit resolved fuel a planner with
    | none =>
      refine ⟨fun after hafter => ?_, fun e he => ?_, fun hfuel => ?_⟩
      · cases hafter
      · cases he
      · obtain ⟨r, hr⟩ := hspec.ends hfuel
        rw [hresult] at hr
        cases hr
    | some result =>
      cases result with
      | error e =>
        refine ⟨fun after hafter => ?_, fun _ _ => hspec.refused e hresult, fun _ => ⟨_, rfl⟩⟩
        cases hafter
      | ok between =>
        obtain ⟨hplanned, hstack, ⟨more, hmore⟩, hdone, _⟩ := hspec.planned between hresult
        obtain ⟨hok, herror, hends⟩ := ih hplanned
          (fun b hb => hreached b (List.mem_cons_of_mem _ hb))
          (fun b hb => hstack ▸ hpath b (List.mem_cons_of_mem _ hb))
        refine ⟨fun after hafter => ?_, herror, fun hfuel => hends (hstack ▸ hfuel)⟩
        obtain ⟨hplanned', hstack', ⟨more', hmore'⟩, hall⟩ := hok after hafter
        refine ⟨hplanned', hstack'.trans hstack, ⟨more ++ more', ?_⟩, fun b hb => ?_⟩
        · rw [hmore', hmore, List.append_assoc]
        · obtain rfl | hb := List.mem_cons.mp hb
          · rw [hmore', List.map_append]
            exact List.mem_append_left _ hdone
          · exact hall b hb

/-- **one visit**: it plans its app after its dependencies, and fails only at an obstacle -/
theorem visit_spec {first : SourceApp} (fuel : Nat) (a : SourceApp) (planner : AppGraphPlanner)
    (h : Planned resolved first planner) (ha : Relation.ReflTransGen resolved.Leads first a)
    (hpath : ∀ x ∈ planner.stack, Relation.TransGen resolved.Leads x a) :
    Visits resolved first fuel a planner (visit resolved fuel a planner) := by
  induction fuel generalizing a planner with
  | zero =>
    refine ⟨fun _ hafter => (by cases hafter), fun _ he => (by cases he), fun hfuel => ?_⟩
    have hlength := h.stack_length
    omega
  | succ fuel ih =>
    unfold visit
    cases henter : planner.enter a with
    | error e =>
      exact ⟨fun _ hafter => (by cases hafter), fun _ _ => h.enter_error ha hpath henter,
        fun _ => ⟨_, rfl⟩⟩
    | ok entered =>
      obtain ⟨entered, done⟩ := entered
      obtain ⟨hentered, hstack, horder, hsource, hdone, hnew⟩ := h.enter_ok ha henter
      cases done with
      | true =>
        have hin := hdone rfl
        refine ⟨fun after hafter => ?_, fun _ he => (by cases he), fun _ => ⟨_, rfl⟩⟩
        obtain rfl := Except.ok.inj (Option.some.inj hafter)
        refine ⟨hentered, hstack, ⟨[], ?_⟩, horder ▸ hin, fun hnot => absurd hin hnot⟩
        rw [List.append_nil, horder]
      | false =>
        cases hunit : resolved.sourceUnit a with
        | error e =>
          simp only
          refine ⟨fun _ hafter => (by cases hafter), fun _ _ => ?_, fun _ => ⟨_, rfl⟩⟩
          refine .inr (.inr ⟨a, ha, fun ⟨unit, hok⟩ => ?_⟩)
          rw [hunit] at hok
          cases hok
        | ok unit =>
          simp only
          have hstarted := hentered.start hunit hsource (hnew rfl)
          have hleads : ∀ b ∈ unit.dependencies, resolved.Leads a b := fun b hb =>
            ⟨unit, hunit, hb⟩
          have hopen : ∀ x ∈ (entered.start a).stack,
              x = a ∨ Relation.TransGen resolved.Leads x a := by
            intro x hx
            obtain hx | hx := List.mem_append.mp hx
            · exact .inr (hpath x (hstack ▸ hx))
            · exact .inl (List.mem_singleton.mp hx)
          obtain ⟨hok, herror, hends⟩ := visitAll_spec ih unit.dependencies hstarted
            (fun b hb => ha.tail (hleads b hb)) fun b hb x hx => by
              obtain rfl | hxa := hopen x hx
              · exact .single (hleads b hb)
              · exact hxa.tail (hleads b hb)
          refine ⟨fun after hafter => ?_, fun e he => ?_, fun hfuel => ?_⟩
          · obtain ⟨visited, hvisited, hfinish⟩ := Option.map_eq_some_iff.mp hafter
            cases visited with
            | error e => cases hfinish
            | ok between =>
              obtain ⟨hbetween, hbetweenStack, ⟨more, hmore⟩, hall⟩ := hok between hvisited
              obtain rfl := Except.ok.inj hfinish
              have hname := (sourceUnit_ok hunit).1
              refine ⟨hbetween.finish hunit hbetweenStack hall, ?_, ⟨more ++ [unit], ?_⟩, ?_, ?_⟩
              · show between.stack.dropLast = planner.stack
                rw [hbetweenStack, ← hstack]
                exact List.dropLast_concat
              · show between.order ++ [unit] = _
                rw [hmore, ← horder, List.append_assoc]
                rfl
              · show a ∈ (between.order ++ [unit]).map AppBuildUnit.sourceApp
                rw [List.map_append, List.map_singleton, hname]
                exact List.mem_append_right _ List.mem_cons_self
              · intro _
                show (between.order ++ [unit]).getLast?.map AppBuildUnit.sourceApp = some a
                rw [List.getLast?_concat, Option.map_some, hname]
          · obtain ⟨visited, hvisited, hfinish⟩ := Option.map_eq_some_iff.mp he
            cases visited with
            | error e' => exact herror e' hvisited
            | ok between => cases hfinish
          · have hmore : resolved.sourceApps.length < fuel + (entered.start a).stack.length := by
              show _ < fuel + (entered.stack ++ [a]).length
              rw [List.length_append, List.length_singleton, hstack]
              omega
            obtain ⟨r, hr⟩ := hends hmore
            exact ⟨_, by rw [hr, Option.map_some]⟩

/-! ## the plan -/

theorem leads_iff {a b : SourceApp} :
    resolved.Leads a b ↔ (∃ unit, resolved.sourceUnit a = .ok unit) ∧ resolved.DependsOn a b := by
  constructor
  · rintro ⟨unit, hunit, hb⟩
    exact ⟨⟨unit, hunit⟩, ((sourceUnit_ok hunit).2 b).mp hb⟩
  · rintro ⟨⟨unit, hunit⟩, hb⟩
    exact ⟨unit, hunit, ((sourceUnit_ok hunit).2 b).mpr hb⟩

/-- the walk always ends; it ends with a plan of what is reached, or at an obstacle -/
theorem plan_spec (resolved : ResolvedModules) (app : String) :
    (∃ result, AppGraphPlan.new resolved app = some result) ∧
    (∀ e, AppGraphPlan.new resolved app = some (.error e) →
      Obstacle resolved (resolved.rootSourceApp app)) ∧
    ∀ order, AppGraphPlan.new resolved app = some (.ok order) →
      ¬ Obstacle resolved (resolved.rootSourceApp app) ∧
      Topological resolved.Leads (order.map AppBuildUnit.sourceApp) ∧
      (∀ a, a ∈ order.map AppBuildUnit.sourceApp ↔
        Relation.ReflTransGen resolved.Leads (resolved.rootSourceApp app) a) ∧
      order.getLast?.map AppBuildUnit.sourceApp = some (resolved.rootSourceApp app) := by
  have hspec : Visits resolved (resolved.rootSourceApp app) (resolved.sourceApps.length + 1)
      (resolved.rootSourceApp app) .empty
      (visit resolved (resolved.sourceApps.length + 1) (resolved.rootSourceApp app) .empty) :=
    visit_spec _ _ _ (planned_empty _) .refl fun x hx => absurd hx List.not_mem_nil
  unfold AppGraphPlan.new
  refine ⟨?_, fun e he => ?_, fun order horder => ?_⟩
  · obtain ⟨r, hr⟩ := hspec.ends (by simp [AppGraphPlanner.empty])
    exact ⟨_, by rw [hr, Option.map_some]⟩
  · obtain ⟨visited, hvisited, hmap⟩ := Option.map_eq_some_iff.mp he
    cases visited with
    | error e' => exact hspec.refused e' hvisited
    | ok after => cases hmap
  · obtain ⟨visited, hvisited, hmap⟩ := Option.map_eq_some_iff.mp horder
    cases visited with
    | error e' => cases hmap
    | ok after =>
      obtain rfl := Except.ok.inj hmap
      obtain ⟨hplanned, _, _, hroot, hlast⟩ := hspec.planned after hvisited
      have hclosed : ∀ a, Relation.ReflTransGen resolved.Leads (resolved.rootSourceApp app) a →
          a ∈ after.order.map AppBuildUnit.sourceApp := fun a ha => hplanned.ordered.closed hroot ha
      have hmark : ∀ a ∈ after.order.map AppBuildUnit.sourceApp,
          after.visits.get a = some .complete := fun a ha => (hplanned.complete a).mpr ha
      refine ⟨?_, hplanned.ordered, fun a => ⟨fun ha => ?_, hclosed a⟩, hlast List.not_mem_nil⟩
      · rintro (⟨a, ha, hcycle⟩ | ⟨a, b, ha, hb, hname, hne⟩ | ⟨a, ha, hfail⟩)
        · exact hplanned.ordered.acyclic (hclosed a ha) hcycle
        · have hsource := hplanned.claimed a _ (hmark a (hclosed a ha))
          have hsource' := hplanned.claimed b _ (hmark b (hclosed b hb))
          rw [hname, hsource'] at hsource
          exact hne (Option.some.inj hsource).symm
        · obtain ⟨unit, hunit, rfl⟩ := List.mem_map.mp (hclosed a ha)
          exact hfail ⟨unit, hplanned.units unit hunit⟩
      · exact hplanned.visited_reached (hmark a ha)

theorem reached_dependsOn {first a : SourceApp}
    (h : Relation.ReflTransGen resolved.Leads first a) :
    Relation.ReflTransGen resolved.DependsOn first a := by
  induction h with
  | refl => exact .refl
  | tail _ hbc ih => exact ih.tail (leads_iff.mp hbc).2

theorem reached_iff {first a : SourceApp}
    (h : ∀ a, Relation.ReflTransGen resolved.Leads first a →
      ∃ unit, resolved.sourceUnit a = .ok unit) :
    Relation.ReflTransGen resolved.Leads first a ↔
      Relation.ReflTransGen resolved.DependsOn first a := by
  constructor
  · intro ha
    exact reached_dependsOn ha
  · intro ha
    induction ha with
    | refl => exact .refl
    | tail _ hbc ih => exact ih.tail (leads_iff.mpr ⟨h _ ih, hbc⟩)

theorem cycle_of_dependsOn {first a : SourceApp}
    (h : ∀ a, Relation.ReflTransGen resolved.Leads first a →
      ∃ unit, resolved.sourceUnit a = .ok unit)
    (ha : Relation.ReflTransGen resolved.Leads first a)
    (hcycle : Relation.TransGen resolved.DependsOn a a) :
    Relation.TransGen resolved.Leads a a := by
  have hall : ∀ b, Relation.TransGen resolved.DependsOn a b →
      Relation.TransGen resolved.Leads a b := by
    intro b hab
    induction hab with
    | single hb => exact .single (leads_iff.mpr ⟨h _ ha, hb⟩)
    | tail _ hbc ih => exact ih.tail (leads_iff.mpr ⟨h _ (ha.trans ih.to_reflTransGen), hbc⟩)
  exact hall a hcycle

end ResolvedModules

open ResolvedModules

/-- **the order of the apps**, when every app that is reached is declared by a file of the program:
the walk ends; it succeeds if and only if no reached app depends on itself, no name is reached in
two files, and each reached app lists actors with different names; then every reached app is
planned once, after all apps it depends on, and the root app last -/
theorem AppGraphPlan.new_orders (resolved : ResolvedModules) (app : String)
    (hdeclared : ∀ a, Relation.ReflTransGen resolved.DependsOn (resolved.rootSourceApp app) a →
      ∃ root id, resolved.Declares a root id) :
    (∃ result, AppGraphPlan.new resolved app = some result) ∧
    ((∃ order, AppGraphPlan.new resolved app = some (.ok order)) ↔
      (∀ a, Relation.ReflTransGen resolved.DependsOn (resolved.rootSourceApp app) a →
        ¬ Relation.TransGen resolved.DependsOn a a) ∧
      (∀ a b, Relation.ReflTransGen resolved.DependsOn (resolved.rootSourceApp app) a →
        Relation.ReflTransGen resolved.DependsOn (resolved.rootSourceApp app) b →
        a.app = b.app → a.source = b.source) ∧
      ∀ a, Relation.ReflTransGen resolved.DependsOn (resolved.rootSourceApp app) a →
        resolved.ListsDistinctActors a) ∧
    ∀ order, AppGraphPlan.new resolved app = some (.ok order) →
      (order.map AppBuildUnit.sourceApp).Nodup ∧
      (∀ a, a ∈ order.map AppBuildUnit.sourceApp ↔
        Relation.ReflTransGen resolved.DependsOn (resolved.rootSourceApp app) a) ∧
      (∀ before unit after, order = before ++ unit :: after → ∀ b,
        resolved.DependsOn unit.sourceApp b → b ∈ before.map AppBuildUnit.sourceApp) ∧
      order.getLast?.map AppBuildUnit.sourceApp = some (resolved.rootSourceApp app) := by
  obtain ⟨hends, hrefused, hplan⟩ := plan_spec resolved app
  have hunits : ∀ order, AppGraphPlan.new resolved app = some (.ok order) →
      ∀ a, Relation.ReflTransGen resolved.Leads (resolved.rootSourceApp app) a →
        ∃ unit, resolved.sourceUnit a = .ok unit := by
    intro order horder a ha
    by_contra hfail
    exact (hplan order horder).1 (.inr (.inr ⟨a, ha, hfail⟩))
  refine ⟨hends, ⟨?_, ?_⟩, fun order horder => ?_⟩
  · rintro ⟨order, horder⟩
    have hunit := hunits order horder
    obtain ⟨hclear, _⟩ := hplan order horder
    refine ⟨fun a ha hcycle => ?_, fun a b ha hb hname => ?_, fun a ha => ?_⟩
    · have ha := (reached_iff hunit).mpr ha
      exact hclear (.inl ⟨a, ha, cycle_of_dependsOn hunit ha hcycle⟩)
    · by_contra hne
      exact hclear (.inr (.inl
        ⟨a, b, (reached_iff hunit).mpr ha, (reached_iff hunit).mpr hb, hname, hne⟩))
    · exact (exists_sourceUnit_iff.mp (hunit a ((reached_iff hunit).mpr ha))).2
  · rintro ⟨hacyclic, hnames, hdistinct⟩
    have hsub : ∀ a, Relation.ReflTransGen resolved.Leads (resolved.rootSourceApp app) a →
        Relation.ReflTransGen resolved.DependsOn (resolved.rootSourceApp app) a :=
      fun _ => reached_dependsOn
    obtain ⟨result, hresult⟩ := hends
    cases result with
    | ok order => exact ⟨order, hresult⟩
    | error e =>
      obtain ⟨a, ha, hcycle⟩ | ⟨a, b, ha, hb, hname, hne⟩ | ⟨a, ha, hfail⟩ := hrefused e hresult
      · have hcycle := Relation.TransGen.mono (fun _ _ hab => (leads_iff.mp hab).2) _ _ hcycle
        exact absurd hcycle (hacyclic a (hsub a ha))
      · exact absurd (hnames a b (hsub a ha) (hsub b hb) hname) hne
      · have ha := hsub a ha
        exact absurd (exists_sourceUnit_iff.mpr ⟨hdeclared a ha, hdistinct a ha⟩) hfail
  · have hunit := hunits order horder
    obtain ⟨_, hordered, hmem, hlast⟩ := hplan order horder
    refine ⟨hordered.nodup, fun a => (hmem a).trans (reached_iff hunit), ?_, hlast⟩
    rintro before unit after rfl b hb
    have hin : unit.sourceApp ∈ (before ++ unit :: after).map AppBuildUnit.sourceApp :=
      List.mem_map_of_mem (List.mem_append_right _ List.mem_cons_self)
    refine hordered.after _ unit.sourceApp (after.map AppBuildUnit.sourceApp) ?_ b
      (leads_iff.mpr ⟨hunit _ ((hmem _).mp hin), hb⟩)
    rw [List.map_append, List.map_cons]

/-! ## a diamond -/

/-- a file with an app of one actor, whose entry spawns actors of other apps -/
def diamondModule (path actor app : String) (spawned : List String) : Module where
  path := path
  consts := []
  states := [⟨"S", [], none⟩]
  functions := []
  actors := [⟨actor, "S", [],
    [⟨"breed", [], [], [], spawned.map fun handle => ⟨[⟨handle, .one⟩]⟩⟩]⟩]
  actorEnums := []
  apps := [⟨app, [actor]⟩]

def diamondImports : List (List ResolvedImport) :=
  [[⟨1, some "left"⟩, ⟨2, some "right"⟩], [⟨3, some "base"⟩], [⟨3, some "base"⟩], []]

/-- `left.ag` and `right.ag` import `base.ag`, and are imported by `root.ag` -/
def diamondGraph : ModuleGraph where
  modules := [diamondModule "root.ag" "R" "Top" ["l", "m"],
    diamondModule "left.ag" "L" "Left" ["b"], diamondModule "right.ag" "M" "Right" ["b"],
    diamondModule "base.ag" "B" "Base" []]
  imports := diamondImports
  length_eq := rfl
  targets_lt := by decide

/-- the declarations of a file and the aliases of its imports -/
def diamondCandidates (id : ModuleId) (actor app : String) (aliases : List (String × ModuleId)) :
    Candidates :=
  aliases.foldl (fun candidates i => candidates.add i.1 (.namespaceOf i.2))
    ((MultiMap.add app (.declaration ⟨id, .app, 0⟩) ∘
      MultiMap.add actor (.declaration ⟨id, .actor, 0⟩) ∘
      MultiMap.add "S" (.declaration ⟨id, .state, 0⟩)) ∅)

def diamondInitial : List Candidates :=
  [diamondCandidates 0 "R" "Top" [("left", 1), ("right", 2)],
    diamondCandidates 1 "L" "Left" [("base", 3)], diamondCandidates 2 "M" "Right" [("base", 3)],
    diamondCandidates 3 "B" "Base" []]

def diamondTable : NamespaceTable :=
  ⟨[BTreeMap.ofList [("R", .declaration ⟨0, .actor, 0⟩), ("S", .declaration ⟨0, .state, 0⟩),
      ("Top", .declaration ⟨0, .app, 0⟩), ("left", .namespaceOf 1), ("right", .namespaceOf 2)],
    BTreeMap.ofList [("L", .declaration ⟨1, .actor, 0⟩), ("Left", .declaration ⟨1, .app, 0⟩),
      ("S", .declaration ⟨1, .state, 0⟩), ("base", .namespaceOf 3)],
    BTreeMap.ofList [("M", .declaration ⟨2, .actor, 0⟩), ("Right", .declaration ⟨2, .app, 0⟩),
      ("S", .declaration ⟨2, .state, 0⟩), ("base", .namespaceOf 3)],
    BTreeMap.ofList [("B", .declaration ⟨3, .actor, 0⟩), ("Base", .declaration ⟨3, .app, 0⟩),
      ("S", .declaration ⟨3, .state, 0⟩)]]⟩

theorem diamondTable_eq : NamespaceTable.new diamondGraph = .ok diamondTable := by
  have hinitial : initialCandidates diamondGraph = .ok diamondInitial := rfl
  have hclosed : closeCandidates diamondGraph.imports diamondInitial = diamondInitial :=
    Saturate.saturate_of_eq _ rfl
  refine bind_eq_ok.mpr ⟨_, hinitial, bind_eq_ok.mpr ⟨diamondTable.exports, ?_, rfl⟩⟩
  rw [hclosed]
  rfl

/-- the app of a file -/
def diamondApps : List SourceApp :=
  [⟨"root.ag", "Top"⟩, ⟨"left.ag", "Left"⟩, ⟨"right.ag", "Right"⟩, ⟨"base.ag", "Base"⟩]

/-- the files whose actors each file spawns -/
def diamondNeeds : List (ModuleId × ModuleId) := [(0, 1), (0, 2), (1, 3), (2, 3)]

def diamondActors : List String := ["R", "L", "M", "B"]

/-- what the binder records for the declarations of a file -/
def diamondRecorded (id : ModuleId) : List (DeclId × DeclarationBindings) :=
  let spawned := (diamondNeeds.filter fun need => need.1 = id).map fun need =>
    (⟨⟨need.2, .app, 0⟩, ⟨need.2, .actor, 0⟩⟩ : AppMember)
  [(⟨id, .app, 0⟩, ⟨{⟨id, .actor, 0⟩}, ∅, ∅, fun _ => none, ∅, []⟩),
    (⟨id, .actor, 0⟩, ⟨{⟨id, .state, 0⟩}, .ofList spawned, ∅, fun _ => none, ∅, []⟩),
    (⟨id, .state, 0⟩, ⟨∅, ∅, ∅, fun _ => none, ∅, []⟩)]

def diamondBindings : List (DeclId × DeclarationBindings) := (List.range 4).flatMap diamondRecorded

theorem diamondBindings_declarations : ∀ item ∈ diamondBindings,
    ∀ id ∈ item.2.declarations.toList, id.moduleId = item.1.moduleId ∧
      (diamondGraph.modules[id.moduleId]?.any fun m => id.index < (m.names id.kind).length) = true := by
  decide +kernel

def diamondProgram : ResolvedExports := ⟨diamondGraph, diamondTable, diamondTable_eq⟩

theorem diamondBindings_apps : ∀ item ∈ diamondBindings, ∀ member ∈ item.2.apps.toList,
    (diamondProgram.appDecl member.app).isSome = true ∧
      (item.1.moduleId, member.app.moduleId) ∈ diamondNeeds ∧
        member.app = ⟨member.app.moduleId, .app, 0⟩ := by
  decide +kernel

theorem diamond_modules : ∀ id < 4, ∀ m ∈ diamondGraph.modules[id]?, ∀ a ∈ diamondApps[id]?,
    m.path = a.source ∧ m.apps = [⟨a.app, [diamondActors.getD id ""]⟩] := by
  decide

theorem exists_diamondApps {id : ModuleId} (h : id < 4) : ∃ a, diamondApps[id]? = some a :=
  ⟨_, List.getElem?_eq_getElem h⟩

theorem diamond_appDecl {app : DeclId} {decl : AppDecl}
    (h : diamondProgram.appDecl app = some decl) : app.moduleId < 4 ∧ app = ⟨app.moduleId, .app, 0⟩ ∧
      decl.actors = [diamondActors.getD app.moduleId ""] := by
  obtain ⟨id, kind, index⟩ := app
  unfold ResolvedExports.appDecl at h
  split_ifs at h with hkind
  obtain rfl : kind = .app := hkind
  obtain ⟨m, hmodule, hindex⟩ := Option.bind_eq_some_iff.mp h
  have hlt : id < 4 := (List.getElem?_eq_some_iff.mp hmodule).1
  obtain ⟨a, ha⟩ := exists_diamondApps hlt
  rw [(diamond_modules id hlt m hmodule a ha).2] at hindex
  obtain ⟨hzero, rfl⟩ := List.getElem?_eq_some_iff.mp hindex
  obtain rfl : index = 0 := Nat.lt_one_iff.mp hzero
  exact ⟨hlt, rfl, rfl⟩

theorem lt_four {n : Nat} (h : n < 4) : n = 0 ∨ n = 1 ∨ n = 2 ∨ n = 3 := by omega

theorem diamond_followPath {id : ModuleId} (h : id < 4) :
    diamondProgram.followPath id (diamondActors.getD id "")
      (pathSegments (diamondActors.getD id "")) = .done (.ok (.declaration ⟨id, .actor, 0⟩)) := by
  have hsegments : ∀ id < 4,
      pathSegments (diamondActors.getD id "") = [diamondActors.getD id ""] := by decide +kernel
  rw [hsegments id h]
  obtain rfl | rfl | rfl | rfl  := lt_four h
  · rfl
  · rfl
  · rfl
  · rfl

def diamond : ResolvedModules where
  program := diamondProgram
  root := 0
  bindings := .ofList diamondBindings
  app_actors := by
    intro app decl happ reference hreference
    obtain ⟨hlt, -, hactors⟩ := diamond_appDecl happ
    rw [hactors] at hreference
    rw [List.mem_singleton.mp hreference]
    exact ⟨_, diamond_followPath hlt, rfl⟩
  bound_declarations := by
    intro id recorded h id' hid'
    obtain ⟨-, hinside⟩ := diamondBindings_declarations _ (BTreeMap.mem_of_get_ofList h) id' hid'
    obtain ⟨m, hmodule, hindex⟩ := (Option.any_eq_true ..).mp hinside
    exact ⟨m, hmodule, of_decide_eq_true hindex⟩
  bound_apps := by
    intro id recorded h member hmember
    obtain ⟨happ, -⟩ := diamondBindings_apps _ (BTreeMap.mem_of_get_ofList h) member hmember
    exact Option.isSome_iff_exists.mp happ

/-! ### its dependencies -/

theorem diamond_declares {a : SourceApp} {root : ModuleId} {app : DeclId}
    (h : diamond.Declares a root app) : diamondApps[root]? = some a ∧ app = ⟨root, .app, 0⟩ := by
  obtain ⟨hroot, happ⟩ := h
  obtain ⟨hlt, hpath, -⟩ := List.findIdx?_eq_some_iff_getElem.mp hroot
  obtain ⟨b, hb⟩ := exists_diamondApps hlt
  unfold rootApp at happ
  split at happ
  next => cases happ
  next m hmodule =>
    obtain ⟨hsource, happs⟩ := diamond_modules root hlt m hmodule b hb
    obtain ⟨index, hindex, rfl⟩ := Option.map_eq_some_iff.mp (okOr_eq_ok.mp happ)
    rw [happs] at hindex
    obtain ⟨hzero, hname, -⟩ := List.findIdx?_eq_some_iff_getElem.mp hindex
    obtain rfl : index = 0 := Nat.lt_one_iff.mp hzero
    obtain rfl : diamond.graph.modules[root] = m :=
      Option.some.inj ((List.getElem?_eq_getElem hlt).symm.trans hmodule)
    obtain rfl : b = a := by
      apply SourceApp.key_inj
      show [b.source, b.app] = [a.source, a.app]
      rw [← hsource, beq_iff_eq.mp hpath, ← beq_iff_eq.mp hname]
      rfl
    exact ⟨hb, rfl⟩

theorem declares_diamond {a : SourceApp} {root : ModuleId} (h : diamondApps[root]? = some a) :
    diamond.Declares a root ⟨root, .app, 0⟩ := by
  have hlt : root < 4 := (List.getElem?_eq_some_iff.mp h).1
  obtain rfl | rfl | rfl | rfl  := lt_four hlt
  · obtain rfl := Option.some.inj h
    exact ⟨rfl, rfl⟩
  · obtain rfl := Option.some.inj h
    exact ⟨rfl, rfl⟩
  · obtain rfl := Option.some.inj h
    exact ⟨rfl, rfl⟩
  · obtain rfl := Option.some.inj h
    exact ⟨rfl, rfl⟩

theorem diamond_rootDeclarations : ∀ root < 4,
    ∀ id ∈ (diamond.withRoot root).rootDeclarations, id.moduleId = root := by
  decide +kernel

theorem diamond_resolve {id : ModuleId} (h : id < 4) :
    diamond.resolve id (diamondActors.getD id "") = .ok (.declaration ⟨id, .actor, 0⟩) :=
  resolve_of_followPath (diamond_followPath h)

theorem diamond_startsFrom {root : ModuleId} (hroot : root < 4) {start : DeclId}
    (h : diamond.StartsFrom root ⟨root, .app, 0⟩ start) : start.moduleId = root := by
  obtain ⟨⟨hstart, -⟩⟩ | ⟨decl, hdecl, reference, hreference, hresolve⟩ := h
  · exact diamond_rootDeclarations root hroot start hstart
  · obtain ⟨-, -, hactors⟩ := diamond_appDecl hdecl
    rw [hactors] at hreference
    rw [List.mem_singleton.mp hreference, diamond_resolve hroot] at hresolve
    obtain rfl := ResolvedName.declaration.inj (Except.ok.inj hresolve)
    rfl

theorem diamond_reaches {start id : DeclId}
    (h : Relation.ReflTransGen diamond.RefersTo start id) : id.moduleId = start.moduleId := by
  induction h with
  | refl => rfl
  | tail _ hrefers ih =>
    obtain ⟨recorded, hget, hid⟩ := hrefers
    exact (diamondBindings_declarations _ (BTreeMap.mem_of_get_ofList hget) _ hid).1.trans ih

theorem diamond_appSource {id : ModuleId} (h : id < 4) :
    diamond.appSource ⟨id, .app, 0⟩ = diamondApps[id]? := by
  obtain rfl | rfl | rfl | rfl := lt_four h
  · rfl
  · rfl
  · rfl
  · rfl

theorem diamond_spawns : ∀ need ∈ diamondNeeds, need.1 < 4 ∧ need.2 < 4 ∧
    (diamond.bindings.get ⟨need.1, .actor, 0⟩).any (fun recorded =>
      (⟨⟨need.2, .app, 0⟩, ⟨need.2, .actor, 0⟩⟩ : AppMember) ∈ recorded.apps) = true := by
  decide +kernel

/-- the apps depend on each other as their files spawn -/
theorem diamond_dependsOn {a b : SourceApp} : diamond.DependsOn a b ↔
    ∃ need ∈ diamondNeeds, diamondApps[need.1]? = some a ∧ diamondApps[need.2]? = some b := by
  constructor
  · rintro ⟨root, app, start, id, recorded, hdeclares, hstart, hreach, hget, member, hmember, hb⟩
    obtain ⟨ha, rfl⟩ := diamond_declares hdeclares
    have hroot : root < 4 := (List.getElem?_eq_some_iff.mp ha).1
    obtain ⟨-, hneed, hmember⟩ :=
      diamondBindings_apps _ (BTreeMap.mem_of_get_ofList hget) member hmember
    obtain ⟨-, hlt, -⟩ := diamond_spawns _ hneed
    refine ⟨_, hneed, ?_, ?_⟩
    · show diamondApps[id.moduleId]? = some a
      rw [diamond_reaches hreach, diamond_startsFrom hroot hstart, ha]
    · show diamondApps[member.app.moduleId]? = some b
      rw [← diamond_appSource hlt, ← hmember, hb]
  · rintro ⟨⟨i, j⟩, hneed, ha, hb⟩
    obtain ⟨hi, hj, hspawn⟩ := diamond_spawns _ hneed
    obtain ⟨recorded, hget, hmember⟩ := (Option.any_eq_true ..).mp hspawn
    refine ⟨i, ⟨i, .app, 0⟩, ⟨i, .actor, 0⟩, ⟨i, .actor, 0⟩, recorded, declares_diamond ha,
      .inr ?_, .refl, hget, _, of_decide_eq_true hmember, (diamond_appSource hj).trans hb⟩
    obtain ⟨decl, hdecl⟩ := rootApp_appDecl (declares_diamond ha)
    obtain ⟨-, -, hactors⟩ := diamond_appDecl hdecl
    refine ⟨decl, hdecl, diamondActors.getD i "", ?_, diamond_resolve hi⟩
    rw [hactors]
    exact List.mem_singleton_self _

/-- every app of the diamond is reached from the top, and nothing else -/
theorem diamond_reached {a : SourceApp} :
    Relation.ReflTransGen diamond.DependsOn (diamond.rootSourceApp "Top") a ↔ a ∈ diamondApps := by
  constructor
  · intro h
    induction h with
    | refl => exact List.mem_cons_self
    | tail _ hstep _ =>
      obtain ⟨_, _, _, hb⟩ := diamond_dependsOn.mp hstep
      exact List.mem_of_getElem? hb
  · intro h
    have hleft : diamond.DependsOn ⟨"root.ag", "Top"⟩ ⟨"left.ag", "Left"⟩ :=
      diamond_dependsOn.mpr ⟨(0, 1), by decide, rfl, rfl⟩
    have hright : diamond.DependsOn ⟨"root.ag", "Top"⟩ ⟨"right.ag", "Right"⟩ :=
      diamond_dependsOn.mpr ⟨(0, 2), by decide, rfl, rfl⟩
    have hbase : diamond.DependsOn ⟨"left.ag", "Left"⟩ ⟨"base.ag", "Base"⟩ :=
      diamond_dependsOn.mpr ⟨(1, 3), by decide, rfl, rfl⟩
    simp only [diamondApps, List.mem_cons, List.not_mem_nil, or_false] at h
    obtain rfl | rfl | rfl | rfl := h
    · exact .refl
    · exact .single hleft
    · exact .single hright
    · exact (Relation.ReflTransGen.single hleft).tail hbase

theorem diamond_idxOf {a b : SourceApp} (h : diamond.DependsOn a b) :
    diamondApps.idxOf a < diamondApps.idxOf b := by
  have hnodup : diamondApps.Nodup := by decide
  obtain ⟨need, hneed, ha, hb⟩ := diamond_dependsOn.mp h
  obtain ⟨hi, rfl⟩ := List.getElem?_eq_some_iff.mp ha
  obtain ⟨hj, rfl⟩ := List.getElem?_eq_some_iff.mp hb
  rw [hnodup.idxOf_getElem, hnodup.idxOf_getElem]
  have hlt : ∀ need ∈ diamondNeeds, need.1 < need.2 := by decide
  exact hlt need hneed

theorem diamond_acyclic (a : SourceApp) : ¬ Relation.TransGen diamond.DependsOn a a := by
  intro h
  have hlt : Relation.TransGen (· < ·) (diamondApps.idxOf a) (diamondApps.idxOf a) :=
    h.lift diamondApps.idxOf fun _ _ => diamond_idxOf
  rw [Relation.transGen_eq_self] at hlt
  exact absurd hlt (lt_irrefl _)

theorem diamond_listsDistinctActors (a : SourceApp) : diamond.ListsDistinctActors a := by
  intro root app decl hdeclares hdecl
  obtain ⟨hlt, -, hactors⟩ := diamond_appDecl hdecl
  refine ⟨[diamondActors.getD app.moduleId ""], List.nodup_singleton _, ?_⟩
  rw [hactors]
  refine .cons ⟨⟨app.moduleId, .actor, 0⟩, diamond_resolve hlt, ?_⟩ .nil
  obtain hid | hid | hid | hid := lt_four hlt
  · rw [hid]
    rfl
  · rw [hid]
    rfl
  · rw [hid]
    rfl
  · rw [hid]
    rfl

/-- the four apps of the diamond are planned once each, both sides after the base and the top last -/
theorem diamond_planned : ∃ order, AppGraphPlan.new diamond "Top" = some (.ok order) ∧
    (order.map AppBuildUnit.sourceApp).Perm diamondApps ∧
    (∀ before unit after, order = before ++ unit :: after → ∀ need ∈ diamondNeeds,
      diamondApps[need.1]? = some unit.sourceApp → ∀ b, diamondApps[need.2]? = some b →
        b ∈ before.map AppBuildUnit.sourceApp) ∧
    order.getLast?.map AppBuildUnit.sourceApp = some ⟨"root.ag", "Top"⟩ := by
  obtain ⟨-, hsucceeds, hplan⟩ := AppGraphPlan.new_orders diamond "Top" fun a ha => by
    obtain ⟨root, hroot⟩ := List.getElem?_of_mem (diamond_reached.mp ha)
    exact ⟨root, ⟨root, .app, 0⟩, declares_diamond hroot⟩
  have hsource : ∀ a ∈ diamondApps, ∀ b ∈ diamondApps, a.app = b.app → a.source = b.source := by
    decide
  obtain ⟨order, horder⟩ := hsucceeds.mpr ⟨fun a _ => diamond_acyclic a, fun a b ha hb =>
    hsource a (diamond_reached.mp ha) b (diamond_reached.mp hb),
    fun a _ => diamond_listsDistinctActors a⟩
  obtain ⟨hnodup, hmem, hafter, hlast⟩ := hplan order horder
  refine ⟨order, horder, ?_, fun before unit after heq need hneed ha b hb => ?_, hlast⟩
  · rw [List.perm_ext_iff_of_nodup hnodup (by decide)]
    exact fun a => (hmem a).trans diamond_reached
  · exact hafter before unit after heq b (diamond_dependsOn.mpr ⟨need, hneed, ha, hb⟩)

/-! ## an app that lists an actor twice -/

theorem one_import_list : ([[]] : List (List ResolvedImport)).length = 1 := rfl

/-- `state S {} actor A owns S {} app Test { … }` -/
def listingGraph (actors : List String) : ModuleGraph where
  modules := [⟨"root.ag", [], [⟨"S", [], none⟩], [], [⟨"A", "S", [], []⟩], [], [⟨"Test", actors⟩]⟩]
  imports := [[]]
  length_eq := one_import_list
  targets_lt := by
    intro moduleImports himports i hi
    rw [List.mem_singleton.mp himports] at hi
    exact absurd hi List.not_mem_nil

def listingCandidates : Candidates :=
  ((MultiMap.add "Test" (.declaration ⟨0, .app, 0⟩) ∘ MultiMap.add "A" (.declaration ⟨0, .actor, 0⟩) ∘
    MultiMap.add "S" (.declaration ⟨0, .state, 0⟩)) ∅)

def listingTable : NamespaceTable :=
  ⟨[((BTreeMap.insert "Test" (.declaration ⟨0, .app, 0⟩) ∘
    BTreeMap.insert "S" (.declaration ⟨0, .state, 0⟩) ∘
    BTreeMap.insert "A" (.declaration ⟨0, .actor, 0⟩)) ∅)]⟩

theorem pathSegments_actor : pathSegments "A" = ["A"] := by decide +kernel

def listingBindings : BTreeMap DeclId DeclarationBindings :=
  (BTreeMap.insert ⟨0, .app, 0⟩ ⟨{⟨0, .actor, 0⟩}, ∅, ∅, fun _ => none, ∅, []⟩ ∘
    BTreeMap.insert ⟨0, .actor, 0⟩ ⟨{⟨0, .state, 0⟩}, ∅, ∅, fun _ => none, ∅, []⟩ ∘
    BTreeMap.insert ⟨0, .state, 0⟩ ⟨∅, ∅, ∅, fun _ => none, ∅, []⟩) ∅

theorem not_mem_listingBindings {id : DeclId} {recorded : DeclarationBindings}
    (h : listingBindings.get id = some recorded) (member : AppMember) :
    member ∉ recorded.apps := by
  have hnone : recorded.apps = ∅ := by
    simp only [listingBindings, Function.comp, BTreeMap.get_insert, BTreeMap.get_empty] at h
    split_ifs at h
    · rw [← Option.some.inj h]
    · rw [← Option.some.inj h]
    · rw [← Option.some.inj h]
  rw [hnone]
  exact BTreeSet.not_mem_empty member

/-- the app lists its only actor any number of times -/
def listing (count : Nat) : ResolvedModules where
  program :=
    { graph := listingGraph (List.replicate count "A")
      table := listingTable
      table_eq := by
        have hinitial : initialCandidates (listingGraph (List.replicate count "A")) =
            .ok [listingCandidates] := rfl
        have hclosed : closeCandidates (listingGraph (List.replicate count "A")).imports
            [listingCandidates] = [listingCandidates] := Saturate.saturate_of_eq _ rfl
        refine bind_eq_ok.mpr ⟨_, hinitial, bind_eq_ok.mpr ⟨listingTable.exports, ?_, rfl⟩⟩
        rw [hclosed]
        rfl }
  root := 0
  bindings := listingBindings
  app_actors := by
    intro app decl happ reference hreference
    have hdecl : app.moduleId = 0 ∧ decl.actors = List.replicate count "A" := by
      unfold ResolvedExports.appDecl at happ
      split_ifs at happ
      obtain ⟨m, hmodule, hindex⟩ := Option.bind_eq_some_iff.mp happ
      have hzero : app.moduleId = 0 :=
        Nat.lt_one_iff.mp (List.getElem?_eq_some_iff.mp hmodule).1
      rw [hzero] at hmodule
      obtain rfl := Option.some.inj hmodule
      exact ⟨hzero, congrArg AppDecl.actors (List.mem_singleton.mp (List.mem_of_getElem? hindex))⟩
    rw [hdecl.2] at hreference
    refine ⟨⟨0, .actor, 0⟩, ?_, rfl⟩
    rw [List.eq_of_mem_replicate hreference, hdecl.1, pathSegments_actor]
    rfl
  bound_declarations := by
    intro id recorded h id' hid'
    simp only [listingBindings, Function.comp, BTreeMap.get_insert, BTreeMap.get_empty] at h
    split_ifs at h
    · obtain rfl := Option.some.inj h
      obtain rfl := BTreeSet.mem_singleton.mp hid'
      exact ⟨_, rfl, Nat.zero_lt_one⟩
    · obtain rfl := Option.some.inj h
      obtain rfl := BTreeSet.mem_singleton.mp hid'
      exact ⟨_, rfl, Nat.zero_lt_one⟩
    · obtain rfl := Option.some.inj h
      exact absurd hid' (BTreeSet.not_mem_empty id')
  bound_apps := fun _ _ h member hmember => absurd hmember (not_mem_listingBindings h member)

theorem listing_dependsOn (count : Nat) (a b : SourceApp) : ¬ (listing count).DependsOn a b := by
  rintro ⟨_, _, _, id, recorded, _, _, _, hget, member, hmember, _⟩
  exact not_mem_listingBindings hget member hmember

theorem listing_reached (count : Nat) {a : SourceApp}
    (h : Relation.ReflTransGen (listing count).DependsOn ((listing count).rootSourceApp "Test") a) :
    a = ⟨"root.ag", "Test"⟩ := by
  obtain heq | ⟨b, hb, _⟩ := h.cases_head
  · exact heq.symm
  · exact absurd hb (listing_dependsOn count _ b)

theorem listing_declares (count : Nat) :
    (listing count).Declares ⟨"root.ag", "Test"⟩ 0 ⟨0, .app, 0⟩ := by
  constructor <;> rfl

theorem listing_acyclic (count : Nat) (a : SourceApp) :
    ¬ Relation.TransGen (listing count).DependsOn a a := by
  intro h
  obtain ⟨b, hb, _⟩ := Relation.TransGen.head'_iff.mp h
  exact listing_dependsOn count a b hb

/-- `app Test { actor A; actor A; }` has no dependencies, but no plan -/
theorem listing_twice_refused :
    (∀ a, Relation.ReflTransGen (listing 2).DependsOn ((listing 2).rootSourceApp "Test") a →
      ∃ root id, (listing 2).Declares a root id) ∧
    (∀ a, Relation.ReflTransGen (listing 2).DependsOn ((listing 2).rootSourceApp "Test") a →
      ¬ Relation.TransGen (listing 2).DependsOn a a) ∧
    (∀ a b, Relation.ReflTransGen (listing 2).DependsOn ((listing 2).rootSourceApp "Test") a →
      Relation.ReflTransGen (listing 2).DependsOn ((listing 2).rootSourceApp "Test") b →
      a.app = b.app → a.source = b.source) ∧
    AppGraphPlan.new (listing 2) "Test" = some (.error (.error
      (.new "selected app exports actor name `A` more than once"))) := by
  refine ⟨fun a ha => ?_, fun a _ => listing_acyclic 2 a, fun a b ha hb _ => ?_, ?_⟩
  · rw [listing_reached 2 ha]
    exact ⟨0, ⟨0, .app, 0⟩, listing_declares 2⟩
  · rw [listing_reached 2 ha, listing_reached 2 hb]
  · rfl

end Argent.Resolve
