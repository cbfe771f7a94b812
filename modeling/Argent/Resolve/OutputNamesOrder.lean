import Argent.Base.Stable
import Argent.Resolve.AppGraphSound
import Argent.Resolve.OutputNamesDistinct

/-!
# Output names and the order of imports

The order of the import statements decides the order in which the files are loaded, and so the
numbers of the modules.

* `Reimported`             the same program, loaded in another order;
* `Reimported.followPath`     a path leads to the same target;
* `Reimported.orderedDeclarations`      the declarations are named in the same order;
* `Reimported.selectedDeclarationNames`     **every declaration is given the same name**.
-/

set_option linter.unusedSectionVars false

namespace Argent.Resolve
open Argent.Fallible

/-! ## renumbered bindings -/

theorem DeclId.renumber_symm (σ : Equiv.Perm ModuleId) (id : DeclId) :
    (id.renumber σ).renumber σ.symm = id := by
  simp [DeclId.renumber]

theorem DeclId.symm_renumber (σ : Equiv.Perm ModuleId) (id : DeclId) :
    (id.renumber σ.symm).renumber σ = id := by
  simp [DeclId.renumber]

theorem DeclId.renumber_injective (σ : Equiv.Perm ModuleId) :
    Function.Injective (DeclId.renumber σ) :=
  Function.LeftInverse.injective (DeclId.renumber_symm σ)

def AppMember.renumber (σ : ModuleId → ModuleId) (member : AppMember) : AppMember :=
  ⟨member.app.renumber σ, member.actor.renumber σ⟩

theorem AppMember.renumber_symm (σ : Equiv.Perm ModuleId) (member : AppMember) :
    (member.renumber σ).renumber σ.symm = member := by
  simp [AppMember.renumber, DeclId.renumber]

def DeclarationBindings.renumber (σ : ModuleId → ModuleId) (bindings : DeclarationBindings) :
    DeclarationBindings where
  declarations := .ofList (bindings.declarations.toList.map (DeclId.renumber σ))
  apps := .ofList (bindings.apps.toList.map (AppMember.renumber σ))
  names := bindings.names.mapValues (ResolvedName.renumber σ)
  sites := fun cursor => (bindings.sites cursor).map (ResolvedName.renumber σ)
  localNames := bindings.localNames
  runtimeTexts := bindings.runtimeTexts

theorem image_renumber_symm {α : Type*} [LinearOrder α] {f g : α → α} (h : ∀ a, g (f a) = a)
    (s : BTreeSet α) :
    BTreeSet.ofList ((BTreeSet.ofList (s.toList.map f)).toList.map g) = s := by
  apply BTreeSet.ext_mem
  intro a
  rw [BTreeSet.mem_ofList, List.mem_map]
  constructor
  · rintro ⟨b, hb, rfl⟩
    obtain ⟨c, hc, rfl⟩ := List.mem_map.mp (BTreeSet.mem_ofList.mp hb)
    rw [h]
    exact hc
  · intro ha
    exact ⟨f a, BTreeSet.mem_ofList.mpr (List.mem_map_of_mem ha), h a⟩

theorem map_renumber_symm {α : Type*} {f g : α → α} (h : ∀ a, g (f a) = a) (o : Option α) :
    (o.map f).map g = o := by
  cases o with
  | none => rfl
  | some a => exact congrArg some (h a)

theorem DeclarationBindings.renumber_symm (σ : Equiv.Perm ModuleId)
    (bindings : DeclarationBindings) : (bindings.renumber σ).renumber σ.symm = bindings := by
  obtain ⟨declarations, apps, names, sites, localNames, runtimeTexts⟩ := bindings
  have hnames : (names.mapValues (ResolvedName.renumber σ)).mapValues
      (ResolvedName.renumber σ.symm) = names := by
    apply BTreeMap.ext_get
    intro name
    rw [BTreeMap.get_mapValues, BTreeMap.get_mapValues]
    exact map_renumber_symm (ResolvedName.renumber_symm σ) _
  have hsites : (fun cursor => ((sites cursor).map (ResolvedName.renumber σ)).map
      (ResolvedName.renumber σ.symm)) = sites := by
    funext cursor
    exact map_renumber_symm (ResolvedName.renumber_symm σ) _
  unfold renumber
  dsimp only
  rw [hnames, hsites, image_renumber_symm (DeclId.renumber_symm σ),
    image_renumber_symm (AppMember.renumber_symm σ)]

/-- declarations of one kind and one place are ordered as their modules -/
theorem DeclId.lt_iff_moduleId {m m' : ModuleId} {kind : SymbolKind} {index : Nat} :
    (⟨m, kind, index⟩ : DeclId) < ⟨m', kind, index⟩ ↔ m < m' := by
  show [m, kind.rank, index] < [m', kind.rank, index] ↔ m < m'
  rw [List.cons_lt_cons_iff]
  exact or_iff_left fun hrest => lt_irrefl _ hrest.2

theorem ResolvedModules.orderKey_inj (resolved : ResolvedModules) {id id' : DeclId}
    (h : resolved.orderKey id = resolved.orderKey id') :
    resolved.fileOf id = resolved.fileOf id' ∧ id.kind = id'.kind ∧ id.index = id'.index := by
  obtain ⟨_, hrest⟩ := Prod.mk.inj (toLex.injective h)
  obtain ⟨hfile, hrest⟩ := Prod.mk.inj (toLex.injective hrest)
  obtain ⟨hkind, hindex⟩ := Prod.mk.inj (toLex.injective hrest)
  exact ⟨hfile, SymbolKind.rank_inj hkind, hindex⟩

/-! ## the same program in another order -/

/-- the same program, loaded in another order: every module has its path and its declarations, and
its imports in some order; modules of one path have the same order; and every declaration's names
refer to the same things -/
structure Reimported (left right : ResolvedModules) (σ : Equiv.Perm ModuleId) : Prop where
  graph : Renumbers left.graph right.graph σ
  root : right.root = σ left.root
  order : ∀ id id', id < id' → id' < left.graph.modules.length →
    pathComponents (left.program.modulePath id) = pathComponents (left.program.modulePath id') →
      σ id < σ id'
  bindings : ∀ id, right.bindings.get (id.renumber σ) =
    (left.bindings.get id).map (DeclarationBindings.renumber σ)

namespace Reimported
variable {left right : ResolvedModules} {σ : Equiv.Perm ModuleId}

theorem modulePath (h : Reimported left right σ) (id : ModuleId) :
    right.program.modulePath (σ id) = left.program.modulePath id := by
  unfold ResolvedExports.modulePath
  rw [show right.program.graph.modules[σ id]? = _ from h.graph.modules id]
  rfl

theorem lt_length (h : Reimported left right σ) {id : ModuleId}
    (hid : id < left.graph.modules.length) : σ id < right.graph.modules.length := by
  have hmodule := h.graph.modules id
  rw [List.getElem?_eq_getElem hid] at hmodule
  exact (List.getElem?_eq_some_iff.mp hmodule).1

theorem symm (h : Reimported left right σ) : Reimported right left σ.symm := by
  have hgraph := h.graph.symm
  have hlength : ∀ id, id < right.graph.modules.length → σ.symm id < left.graph.modules.length := by
    intro id hid
    have hmodule := hgraph.modules id
    rw [List.getElem?_eq_getElem hid] at hmodule
    exact (List.getElem?_eq_some_iff.mp hmodule).1
  refine ⟨hgraph, ?_, fun id id' hlt hid' hpath => ?_, fun id => ?_⟩
  · rw [h.root, Equiv.symm_apply_apply]
  · by_contra hnot
    obtain heq | hback := Nat.eq_or_lt_of_le (Nat.le_of_not_lt hnot)
    · exact Nat.ne_of_lt hlt (σ.symm.injective heq.symm)
    · have hpath' : pathComponents (left.program.modulePath (σ.symm id')) =
          pathComponents (left.program.modulePath (σ.symm id)) := by
        rw [← h.modulePath, ← h.modulePath, Equiv.apply_symm_apply, Equiv.apply_symm_apply, hpath]
      have hforth := h.order _ _ hback (hlength id (Nat.lt_trans hlt hid')) hpath'
      rw [Equiv.apply_symm_apply, Equiv.apply_symm_apply] at hforth
      exact absurd hlt (Nat.lt_asymm hforth)
  · obtain ⟨id, rfl⟩ : ∃ id', id = DeclId.renumber σ id' :=
      ⟨id.renumber σ.symm, (DeclId.symm_renumber σ id).symm⟩
    rw [DeclId.renumber_symm, h.bindings]
    exact (map_renumber_symm (DeclarationBindings.renumber_symm σ) _).symm

variable (h : Reimported left right σ)
include h

theorem declName (id : DeclId) : right.declName (id.renumber σ) = left.declName id := by
  unfold ResolvedModules.declName
  rw [show right.graph.modules[(id.renumber σ).moduleId]? = _ from h.graph.modules id.moduleId]
  rfl

theorem sourceName (id : DeclId) : right.sourceName (id.renumber σ) = left.sourceName id := by
  unfold ResolvedModules.sourceName
  rw [h.declName]

theorem fileOf (id : DeclId) : right.fileOf (id.renumber σ) = left.fileOf id :=
  congrArg pathComponents (h.modulePath id.moduleId)

theorem appDecl (id : DeclId) : right.program.appDecl (id.renumber σ) = left.program.appDecl id := by
  unfold ResolvedExports.appDecl
  rw [show right.program.graph.modules[(id.renumber σ).moduleId]? = _ from
    h.graph.modules id.moduleId]
  rfl

theorem actorDecl (id : DeclId) :
    right.program.actorDecl (id.renumber σ) = left.program.actorDecl id := by
  unfold ResolvedExports.actorDecl
  rw [show right.program.graph.modules[(id.renumber σ).moduleId]? = _ from
    h.graph.modules id.moduleId]
  rfl

theorem stateDecl (id : DeclId) : right.stateDecl (id.renumber σ) = left.stateDecl id := by
  unfold ResolvedModules.stateDecl
  rw [show right.graph.modules[(id.renumber σ).moduleId]? = _ from h.graph.modules id.moduleId]
  rfl

/-! ## exports and paths -/

theorem get_exports {id : ModuleId} {exports : Exports}
    (hget : left.program.table.exports[id]? = some exports) :
    ∃ exports', right.program.table.exports[σ id]? = some exports' ∧
      ∀ name, exports'.get name = (exports.get name).map (ResolvedName.renumber σ) := by
  obtain ⟨hlength, _⟩ := NamespaceTable.new_ok left.program.table_eq
  have hid : id < left.graph.modules.length := hlength ▸ (List.getElem?_eq_some_iff.mp hget).1
  obtain ⟨exports', hget', _⟩ := @ResolvedExports.exists_exports right.program _ (h.lt_length hid)
  exact ⟨exports', hget',
    h.graph.get_exports left.program.table_eq right.program.table_eq hget hget'⟩

theorem lookup {fromModule fromModule' current : ModuleId} {reference segment : String}
    {target : ResolvedName}
    (hlookup : left.program.lookup fromModule reference current segment = .ok target) :
    right.program.lookup fromModule' reference (σ current) segment = .ok (target.renumber σ) := by
  unfold ResolvedExports.lookup at hlookup ⊢
  split_ifs at hlookup ⊢ with hidentifier
  · cases hlookup
  obtain ⟨exports, hexports, hget⟩ := bind_eq_ok.mp hlookup
  obtain ⟨exports', hexports', hall⟩ := h.get_exports (expect_eq_ok.mp hexports)
  refine bind_eq_ok.mpr ⟨exports', expect_eq_ok.mpr hexports', okOr_eq_ok.mpr ?_⟩
  rw [hall, okOr_eq_ok.mp hget]
  rfl

theorem bindSegments {fromModule fromModule' : ModuleId} {reference : String}
    {segments : List String} {current : ModuleId} {target : ResolvedName}
    (hbind : left.program.bindSegments ResolvedExports.PathEnd.done
      (fun app actorName => .member (app, actorName)) fromModule reference current segments =
        .done (.ok target)) :
    right.program.bindSegments ResolvedExports.PathEnd.done
      (fun app actorName => .member (app, actorName)) fromModule' reference (σ current) segments =
        .done (.ok (target.renumber σ)) := by
  induction segments generalizing current with
  | nil => cases hbind
  | cons segment rest ih =>
    unfold ResolvedExports.bindSegments at hbind ⊢
    cases hlookup : left.program.lookup fromModule reference current segment with
    | error e =>
      rw [hlookup] at hbind
      cases hbind
    | ok found =>
      rw [hlookup] at hbind
      rw [h.lookup hlookup]
      cases rest with
      | nil =>
        cases hbind
        rfl
      | cons segment' rest =>
        cases found with
        | namespaceOf id => exact ih hbind
        | declaration app =>
          dsimp only at hbind
          split_ifs at hbind
          cases hbind
        | appMember member => cases hbind

theorem followPath {fromModule : ModuleId} {reference : String} {segments : List String}
    {target : ResolvedName}
    (hfollow : left.program.followPath fromModule reference segments = .done (.ok target)) :
    right.program.followPath (σ fromModule) reference segments = .done (.ok (target.renumber σ)) :=
  h.bindSegments hfollow

/-! ## the selected declarations -/

theorem mem_rootDeclarations {id : DeclId} (hid : id ∈ left.rootDeclarations) :
    id.renumber σ ∈ right.rootDeclarations := by
  unfold ResolvedModules.rootDeclarations at hid ⊢
  rw [h.root]
  cases hget : left.program.table.exports[left.root]? with
  | none =>
    rw [hget] at hid
    exact absurd hid List.not_mem_nil
  | some exports =>
    rw [hget] at hid
    obtain ⟨exports', hget', hall⟩ := h.get_exports hget
    rw [hget']
    obtain ⟨⟨name, target⟩, hentry, htarget⟩ := List.mem_filterMap.mp hid
    have hexport := BTreeMap.mem_entries.mp hentry
    refine List.mem_filterMap.mpr ⟨(name, target.renumber σ), BTreeMap.mem_entries.mpr ?_, ?_⟩
    · rw [hall, hexport]
      rfl
    · cases target with
      | declaration id' =>
        obtain rfl := Option.some.inj htarget
        rfl
      | namespaceOf id' => cases htarget
      | appMember member => cases htarget

theorem mem_rootDeclarations_iff {id : DeclId} :
    id.renumber σ ∈ right.rootDeclarations ↔ id ∈ left.rootDeclarations := by
  refine ⟨fun hid => ?_, h.mem_rootDeclarations⟩
  have hback := h.symm.mem_rootDeclarations hid
  rwa [DeclId.renumber_symm] at hback

theorem refersTo {id id' : DeclId} (hrefers : left.RefersTo id id') :
    right.RefersTo (id.renumber σ) (id'.renumber σ) := by
  obtain ⟨recorded, hget, hmem⟩ := hrefers
  refine ⟨recorded.renumber σ, ?_, BTreeSet.mem_ofList.mpr (List.mem_map_of_mem hmem)⟩
  rw [h.bindings, hget]
  rfl

theorem mem_declarationClosure {roots roots' : List DeclId}
    (hroots : ∀ id ∈ roots, id.renumber σ ∈ roots') {id : DeclId}
    (hid : id ∈ left.declarationClosure roots) :
    id.renumber σ ∈ right.declarationClosure roots' := by
  obtain ⟨start, hstart, hreach⟩ := ResolvedModules.mem_declarationClosure.mp hid
  refine ResolvedModules.mem_declarationClosure.mpr ⟨start.renumber σ, hroots start hstart, ?_⟩
  exact hreach.lift (DeclId.renumber σ) fun _ _ => h.refersTo

theorem resolve_actor {app : DeclId} {decl : AppDecl} (happ : left.program.appDecl app = some decl)
    {reference : String} (hreference : reference ∈ decl.actors) {actor : DeclId}
    (hresolve : left.resolve app.moduleId reference = .ok (.declaration actor)) :
    right.resolve (σ app.moduleId) reference = .ok (.declaration (actor.renumber σ)) := by
  obtain ⟨actor', hfollow, _⟩ := left.app_actors app decl happ reference hreference
  have hresolve' := ResolvedModules.resolve_of_followPath hfollow
  rw [hresolve] at hresolve'
  obtain rfl := ResolvedName.declaration.inj (Except.ok.inj hresolve')
  exact ResolvedModules.resolve_of_followPath (h.followPath hfollow)

theorem appActorIds {app : DeclId} {actors : List DeclId}
    (hactors : left.appActorIds app = .ok actors) :
    right.appActorIds (app.renumber σ) = .ok (actors.map (DeclId.renumber σ)) := by
  obtain ⟨decl, hdecl, _⟩ := bind_eq_ok.mp hactors
  have happ : left.program.appDecl app = some decl := okOr_eq_ok.mp hdecl
  have happ' : right.program.appDecl (app.renumber σ) = some decl := (h.appDecl app).trans happ
  obtain ⟨found, hfound, honly, hiff⟩ := ResolvedModules.exists_appActorIds_iff happ
  obtain ⟨found', hfound', honly', hiff'⟩ := ResolvedModules.exists_appActorIds_iff happ'
  obtain rfl := honly actors hactors
  have hsame : found' = actors.map (DeclId.renumber σ) := by
    have hboth : ∀ (references : List String) (as bs : List DeclId),
        (∀ reference ∈ references, reference ∈ decl.actors) →
        List.Forall₂ (fun reference actor =>
          left.resolve app.moduleId reference = .ok (.declaration actor)) references as →
        List.Forall₂ (fun reference actor =>
          right.resolve (σ app.moduleId) reference = .ok (.declaration actor)) references bs →
        bs = as.map (DeclId.renumber σ) := by
      intro references as bs hin hleft hright
      induction hleft generalizing bs with
      | nil => cases hright; rfl
      | cons hactor _ ih =>
        cases hright with
        | cons hactor' hrest' =>
          have htarget := h.resolve_actor happ (hin _ List.mem_cons_self) hactor
          rw [hactor'] at htarget
          rw [ih _ (fun reference hmem => hin reference (List.mem_cons_of_mem _ hmem)) hrest',
            ResolvedName.declaration.inj (Except.ok.inj htarget), List.map_cons]
    exact hboth decl.actors actors found' (fun _ hmem => hmem) hfound hfound'
  have hnodup : (found'.map right.sourceName).Nodup := by
    rw [hsame, List.map_map]
    have hnames : right.sourceName ∘ DeclId.renumber σ = left.sourceName := funext h.sourceName
    rw [hnames]
    exact hiff.mp ⟨actors, hactors⟩
  obtain ⟨ids, hids⟩ := hiff'.mpr hnodup
  rw [hids, honly' ids hids, hsame]

theorem mem_filter_rootDeclarations {p q : DeclId → Bool} (hpq : ∀ id, q (id.renumber σ) = p id)
    {id : DeclId} (hid : id ∈ left.rootDeclarations.filter p) :
    id.renumber σ ∈ right.rootDeclarations.filter q := by
  obtain ⟨hroot, hkind⟩ := List.mem_filter.mp hid
  exact List.mem_filter.mpr ⟨h.mem_rootDeclarations hroot, (hpq id).trans hkind⟩

/-- the same declarations are selected -/
theorem selectedDeclarations {selected : Option DeclId} {declarations : BTreeSet DeclId}
    (hdeclarations : left.selectedDeclarations selected = .ok declarations) :
    ∃ declarations', right.selectedDeclarations (selected.map (DeclId.renumber σ)) =
      .ok declarations' ∧ ∀ id ∈ declarations, id.renumber σ ∈ declarations' := by
  cases selected with
  | none =>
    obtain rfl := Except.ok.inj hdeclarations
    refine ⟨_, rfl, fun id hid => h.mem_declarationClosure (fun start hstart => ?_) hid⟩
    obtain hstart | hstart := List.mem_append.mp hstart
    · exact List.mem_append_left _ (h.mem_filter_rootDeclarations (fun _ => rfl) hstart)
    · exact List.mem_append_right _ (h.mem_filter_rootDeclarations (fun _ => rfl) hstart)
  | some app =>
    obtain ⟨actors, hactors, hclosure⟩ := bind_eq_ok.mp hdeclarations
    obtain rfl := pure_eq_ok.mp hclosure
    refine ⟨_, bind_eq_ok.mpr ⟨_, h.appActorIds hactors, rfl⟩, fun id hid => ?_⟩
    refine h.mem_declarationClosure (fun start hstart => ?_) hid
    obtain hstart | hstart := List.mem_append.mp hstart
    · exact List.mem_append_left _ (h.mem_filter_rootDeclarations (fun _ => rfl) hstart)
    · exact List.mem_append_right _ (List.mem_map_of_mem hstart)

theorem selectedDeclarations_iff {selected : Option DeclId} {declarations : BTreeSet DeclId}
    (hdeclarations : left.selectedDeclarations selected = .ok declarations) :
    ∃ declarations', right.selectedDeclarations (selected.map (DeclId.renumber σ)) =
      .ok declarations' ∧ ∀ id, id.renumber σ ∈ declarations' ↔ id ∈ declarations := by
  obtain ⟨declarations', hdeclarations', hforth⟩ := h.selectedDeclarations hdeclarations
  obtain ⟨declarations'', hdeclarations'', hback⟩ := h.symm.selectedDeclarations hdeclarations'
  rw [map_renumber_symm (DeclId.renumber_symm σ), hdeclarations] at hdeclarations''
  obtain rfl := Except.ok.inj hdeclarations''
  refine ⟨declarations', hdeclarations', fun id => ⟨fun hid => ?_, hforth id⟩⟩
  have hid' := hback _ hid
  rwa [DeclId.renumber_symm] at hid'

/-! ## reserved names -/

theorem boundDeclaration (bindings : DeclarationBindings) (name : String) :
    ResolvedModules.boundDeclaration (bindings.renumber σ) name =
      (ResolvedModules.boundDeclaration bindings name).map (DeclId.renumber σ) := by
  unfold ResolvedModules.boundDeclaration DeclarationBindings.renumber
  rw [BTreeMap.get_mapValues]
  cases bindings.names.get name with
  | none => rfl
  | some target => cases target <;> rfl

theorem expansionBase (id : DeclId) (bindings : DeclarationBindings) :
    right.expansionBase (id.renumber σ) (bindings.renumber σ) =
      (left.expansionBase id bindings).map (DeclId.renumber σ) := by
  unfold ResolvedModules.expansionBase
  rw [h.stateDecl]
  cases left.stateDecl id with
  | none => rfl
  | some state =>
    rw [Option.bind_some, Option.bind_some]
    cases state.expansionBase with
    | none => rfl
    | some base => exact h.boundDeclaration bindings base

theorem follows_expansion {a b : DeclId}
    (hfollows : Worklist.Follows (left.bindings.mapEntries fun id bindings =>
      (left.expansionBase id bindings).toList) a b) :
    Worklist.Follows (right.bindings.mapEntries fun id bindings =>
      (right.expansionBase id bindings).toList) (a.renumber σ) (b.renumber σ) := by
  unfold Worklist.Follows Worklist.targets at hfollows ⊢
  rw [BTreeMap.get_mapEntries] at hfollows ⊢
  rw [h.bindings]
  cases hget : left.bindings.get a with
  | none =>
    rw [hget] at hfollows
    exact absurd hfollows List.not_mem_nil
  | some bindings =>
    rw [hget] at hfollows
    have hbase : left.expansionBase a bindings = some b := Option.mem_toList.mp hfollows
    show b.renumber σ ∈ (right.expansionBase (a.renumber σ) (bindings.renumber σ)).toList
    rw [h.expansionBase, hbase]
    exact List.mem_singleton_self _

theorem mem_expandedStates {state id : DeclId} (hid : id ∈ left.expandedStates state) :
    id.renumber σ ∈ right.expandedStates (state.renumber σ) := by
  obtain ⟨start, hstart, hreach⟩ := Worklist.mem_close.mp hid
  obtain rfl := List.mem_singleton.mp hstart
  refine Worklist.mem_close.mpr ⟨_, List.mem_singleton_self _, ?_⟩
  exact hreach.lift (DeclId.renumber σ) fun _ _ => h.follows_expansion

theorem mem_actorNames {bindings : DeclarationBindings} {actor : ActorDecl} {name : String}
    (hname : name ∈ left.actorNames bindings actor) :
    name ∈ right.actorNames (bindings.renumber σ) actor := by
  unfold ResolvedModules.actorNames at hname ⊢
  rw [h.boundDeclaration]
  obtain hname | hname := List.mem_append.mp hname
  · exact List.mem_append_left _ hname
  · apply List.mem_append_right
    cases hstate : ResolvedModules.boundDeclaration bindings actor.state with
    | none =>
      rw [hstate] at hname
      exact absurd hname List.not_mem_nil
    | some state =>
      rw [hstate] at hname
      obtain ⟨id, hid, hfield⟩ := List.mem_flatMap.mp hname
      refine List.mem_flatMap.mpr ⟨id.renumber σ, h.mem_expandedStates hid, ?_⟩
      unfold ResolvedModules.stateFields at hfield ⊢
      rw [h.stateDecl]
      exact hfield

theorem mem_reservedLocalNames {owner : DeclId} {name : String}
    (hname : name ∈ left.reservedLocalNames owner) :
    name ∈ right.reservedLocalNames (owner.renumber σ) := by
  unfold ResolvedModules.reservedLocalNames at hname ⊢
  rw [h.bindings, h.actorDecl]
  cases hget : left.bindings.get owner with
  | none =>
    rw [hget] at hname
    exact absurd hname List.not_mem_nil
  | some bindings =>
    rw [hget] at hname
    obtain hname | hname := List.mem_append.mp hname
    · exact List.mem_append_left _ hname
    · apply List.mem_append_right
      cases hactor : left.program.actorDecl owner with
      | none =>
        rw [hactor] at hname
        exact absurd hname List.not_mem_nil
      | some actor =>
        rw [hactor] at hname
        exact h.mem_actorNames hname

theorem mem_reservedLocalNames_iff {owner : DeclId} {name : String} :
    name ∈ right.reservedLocalNames (owner.renumber σ) ↔ name ∈ left.reservedLocalNames owner := by
  refine ⟨fun hname => ?_, h.mem_reservedLocalNames⟩
  have hback := h.symm.mem_reservedLocalNames hname
  rwa [DeclId.renumber_symm] at hback

/-! ## the names -/

section
variable {declarations declarations' : BTreeSet DeclId}
variable (hsame : ∀ id, id.renumber σ ∈ declarations' ↔ id ∈ declarations)
include hsame

theorem foreignLocals (id : DeclId) :
    right.foreignLocals declarations' (id.renumber σ) = left.foreignLocals declarations id := by
  apply BTreeSet.ext_mem
  intro name
  rw [ResolvedModules.mem_foreignLocals, ResolvedModules.mem_foreignLocals]
  constructor
  · rintro ⟨owner, howner, hpath, hname⟩
    rw [← DeclId.symm_renumber σ owner] at howner hpath hname
    rw [h.fileOf, h.fileOf] at hpath
    exact ⟨_, (hsame _).mp howner, hpath, h.mem_reservedLocalNames_iff.mp hname⟩
  · rintro ⟨owner, howner, hpath, hname⟩
    refine ⟨owner.renumber σ, (hsame owner).mpr howner, ?_, h.mem_reservedLocalNames hname⟩
    rw [h.fileOf, h.fileOf]
    exact hpath

theorem mem_sourceNames (name : String) :
    name ∈ declarations'.toList.map right.sourceName ↔
      name ∈ declarations.toList.map left.sourceName := by
  constructor
  · intro hname
    obtain ⟨id, hid, rfl⟩ := List.mem_map.mp hname
    rw [← DeclId.symm_renumber σ id, h.sourceName]
    refine List.mem_map_of_mem ((hsame _).mp ?_)
    rw [DeclId.symm_renumber]
    exact hid
  · intro hname
    obtain ⟨id, hid, rfl⟩ := List.mem_map.mp hname
    rw [← h.sourceName]
    exact List.mem_map_of_mem ((hsame id).mpr hid)

theorem outputName (occupied : BTreeSet String) (id : DeclId) :
    right.outputName declarations' occupied (id.renumber σ) =
      left.outputName declarations occupied id := by
  have hnames : occupied.extend (declarations'.toList.map right.sourceName) =
      occupied.extend (declarations.toList.map left.sourceName) := by
    apply BTreeSet.ext_mem
    intro name
    rw [BTreeSet.mem_extend, BTreeSet.mem_extend, h.mem_sourceNames hsame]
  unfold ResolvedModules.outputName
  rw [h.foreignLocals hsame, h.sourceName, hnames]

theorem orderedDeclarations
    (hlt : ∀ id ∈ declarations, id.moduleId < left.graph.modules.length) :
    right.orderedDeclarations declarations' =
      (left.orderedDeclarations declarations).map (DeclId.renumber σ) := by
  have hkey : ∀ id, right.orderKey (id.renumber σ) = left.orderKey id := by
    intro id
    unfold ResolvedModules.orderKey
    rw [h.fileOf, decide_eq_decide.mpr (not_congr h.mem_rootDeclarations_iff)]
    rfl
  have hperm : declarations'.toList.Perm (declarations.toList.map (DeclId.renumber σ)) := by
    refine (List.perm_ext_iff_of_nodup declarations'.nodup
      (declarations.nodup.map (DeclId.renumber_injective σ))).mpr fun id => ?_
    rw [← DeclId.symm_renumber σ id, List.mem_map_of_injective (DeclId.renumber_injective σ)]
    exact hsame _
  refine Stable.sortByKey_map declarations.sorted declarations'.sorted hperm
    fun a ha b hb hlt' => ?_
  rw [Stable.place_lt, hkey, hkey]
  refine (Stable.place_lt.mp hlt').imp_right fun ⟨heq, hid⟩ => ⟨heq, ?_⟩
  obtain ⟨hfile, hkind, hindex⟩ := left.orderKey_inj heq
  obtain ⟨m, k, i⟩ := a
  obtain ⟨m', k', i'⟩ := b
  obtain rfl : k = k' := hkind
  obtain rfl : i = i' := hindex
  have hm : m < m' := DeclId.lt_iff_moduleId.mp hid
  exact DeclId.lt_iff_moduleId.mpr (h.order m m' hm (hlt _ hb) hfile)

end

end Reimported

/-! ## the names in the other order -/

namespace ResolvedModules
variable {resolved : ResolvedModules}

theorem lt_of_declName {id : DeclId} {name : String} (h : resolved.declName id = some name) :
    id.moduleId < resolved.graph.modules.length := by
  obtain ⟨m, hmodule, _⟩ := Option.bind_eq_some_iff.mp h
  exact (List.getElem?_eq_some_iff.mp hmodule).1

theorem lt_of_rootDeclarations {id : DeclId} (h : id ∈ resolved.rootDeclarations) :
    id.moduleId < resolved.graph.modules.length := by
  unfold rootDeclarations at h
  cases hget : resolved.program.table.exports[resolved.root]? with
  | none =>
    rw [hget] at h
    exact absurd h List.not_mem_nil
  | some exports =>
    rw [hget] at h
    obtain ⟨⟨name, target⟩, hentry, htarget⟩ := List.mem_filterMap.mp h
    obtain ⟨hlength, _⟩ := NamespaceTable.new_ok resolved.program.table_eq
    have hroot : resolved.root < resolved.program.graph.modules.length :=
      hlength ▸ (List.getElem?_eq_some_iff.mp hget).1
    obtain ⟨exports', hget', htargets⟩ := ResolvedExports.exists_exports hroot
    obtain rfl := Option.some.inj (hget.symm.trans hget')
    have hinside := htargets name target (BTreeMap.mem_entries.mp hentry)
    cases target with
    | declaration id' =>
      obtain rfl := Option.some.inj htarget
      exact ModuleGraph.HasDecl.lt hinside
    | namespaceOf id' => cases htarget
    | appMember member => cases htarget

theorem lt_of_selectedDeclarations {selected : Option DeclId} {declarations : BTreeSet DeclId}
    (h : resolved.selectedDeclarations selected = .ok declarations) {id : DeclId}
    (hid : id ∈ declarations) : id.moduleId < resolved.graph.modules.length := by
  have hclosure : ∃ roots, declarations = resolved.declarationClosure roots ∧
      ∀ start ∈ roots, start.moduleId < resolved.graph.modules.length := by
    cases selected with
    | none =>
      obtain rfl := Except.ok.inj h
      refine ⟨_, rfl, fun start hstart => ?_⟩
      obtain hstart | hstart := List.mem_append.mp hstart
      · exact lt_of_rootDeclarations (List.mem_of_mem_filter hstart)
      · exact lt_of_rootDeclarations (List.mem_of_mem_filter hstart)
    | some app =>
      obtain ⟨actors, hactors, hok⟩ := bind_eq_ok.mp h
      obtain rfl := pure_eq_ok.mp hok
      refine ⟨_, rfl, fun start hstart => ?_⟩
      obtain hstart | hstart := List.mem_append.mp hstart
      · exact lt_of_rootDeclarations (List.mem_of_mem_filter hstart)
      · obtain ⟨decl, hdecl, _⟩ := bind_eq_ok.mp hactors
        have happ : resolved.program.appDecl app = some decl := okOr_eq_ok.mp hdecl
        obtain ⟨found, hfound, honly, _⟩ := exists_appActorIds_iff happ
        obtain rfl := honly actors hactors
        obtain ⟨name, hname⟩ := exists_names happ hfound start hstart
        exact lt_of_declName hname
  obtain ⟨roots, rfl, hroots⟩ := hclosure
  obtain ⟨start, hstart, hreach⟩ := mem_declarationClosure.mp hid
  obtain rfl | ⟨_, _, recorded, hget, hmem⟩ := hreach.cases_tail
  · exact hroots _ hstart
  · exact ModuleGraph.HasDecl.lt (resolved.bound_declarations _ recorded hget id hmem)

end ResolvedModules

/-- the same names under other numbers -/
structure AssignedNames.Renamed (σ : ModuleId → ModuleId) (assigned assigned' : AssignedNames) :
    Prop where
  names : ∀ id, assigned'.names.get (id.renumber σ) = assigned.names.get id
  occupied : assigned'.occupied = assigned.occupied

theorem AssignedNames.Renamed.insert {σ : Equiv.Perm ModuleId} {assigned assigned' : AssignedNames}
    (h : AssignedNames.Renamed σ assigned assigned') (id : DeclId) (name : String) :
    AssignedNames.Renamed σ
      ⟨assigned.names.insert id name, insert name assigned.occupied⟩
      ⟨assigned'.names.insert (id.renumber σ) name, insert name assigned'.occupied⟩ := by
  refine ⟨fun id' => ?_, ?_⟩
  · simp only [BTreeMap.get_insert, (DeclId.renumber_injective σ).eq_iff, h.names]
  · rw [h.occupied]

namespace Reimported
variable {left right : ResolvedModules} {σ : Equiv.Perm ModuleId}
variable (h : Reimported left right σ)
include h

theorem nameActors (actors : List DeclId) {assigned assigned' : AssignedNames}
    (hassigned : AssignedNames.Renamed σ assigned assigned') :
    AssignedNames.Renamed σ (actors.foldl left.nameActor assigned)
      ((actors.map (DeclId.renumber σ)).foldl right.nameActor assigned') := by
  induction actors generalizing assigned assigned' with
  | nil => exact hassigned
  | cons actor actors ih =>
    rw [List.map_cons, List.foldl_cons, List.foldl_cons]
    apply ih
    unfold ResolvedModules.nameActor
    rw [h.sourceName]
    exact hassigned.insert actor _

theorem nameDeclarations {declarations declarations' : BTreeSet DeclId}
    (hsame : ∀ id, id.renumber σ ∈ declarations' ↔ id ∈ declarations) (ids : List DeclId)
    {assigned assigned' : AssignedNames} (hassigned : AssignedNames.Renamed σ assigned assigned') :
    AssignedNames.Renamed σ (ids.foldl (left.nameDeclaration declarations) assigned)
      ((ids.map (DeclId.renumber σ)).foldl (right.nameDeclaration declarations') assigned') := by
  induction ids generalizing assigned assigned' with
  | nil => exact hassigned
  | cons id ids ih =>
    rw [List.map_cons, List.foldl_cons, List.foldl_cons]
    apply ih
    have hcontains : assigned'.names.contains (id.renumber σ) = assigned.names.contains id :=
      congrArg Option.isSome (hassigned.names id)
    unfold ResolvedModules.nameDeclaration
    rw [hcontains, h.outputName hsame]
    split_ifs with hnamed
    · exact hassigned
    · have hinsert := hassigned.insert id (left.outputName declarations assigned.occupied id)
      rw [hassigned.occupied] at hinsert ⊢
      exact hinsert

/-- **every declaration is given the same name** -/
theorem selectedDeclarationNames {selected : Option DeclId} {actors : List DeclId}
    {names : BTreeMap DeclId String}
    (hnames : left.selectedDeclarationNames selected actors = .ok names) :
    ∃ names', right.selectedDeclarationNames (selected.map (DeclId.renumber σ))
        (actors.map (DeclId.renumber σ)) = .ok names' ∧
      ∀ id, names'.get (id.renumber σ) = names.get id := by
  obtain ⟨declarations, hdeclarations, hok⟩ := bind_eq_ok.mp hnames
  obtain rfl := pure_eq_ok.mp hok
  obtain ⟨declarations', hdeclarations', hsame⟩ := h.selectedDeclarations_iff hdeclarations
  refine ⟨_, bind_eq_ok.mpr ⟨declarations', hdeclarations', rfl⟩, ?_⟩
  rw [h.orderedDeclarations hsame fun id =>
    ResolvedModules.lt_of_selectedDeclarations hdeclarations]
  exact (h.nameDeclarations hsame _ (h.nameActors actors ⟨fun _ => rfl, rfl⟩)).names

end Reimported

/-- **the names of a program**: every selected declaration is given a name of its own, and the same
name in every order of the imports that leaves the paths of the files as they are -/
theorem ResolvedModules.selectedDeclarationNames_own (resolved : ResolvedModules)
    {selected : Option DeclId} {declarations : BTreeSet DeclId}
    (hdeclarations : resolved.selectedDeclarations selected = .ok declarations)
    {actors : List DeclId} (hdistinct : (actors.map resolved.sourceName).Nodup) :
    ∃ names, resolved.selectedDeclarationNames selected actors = .ok names ∧
      resolved.NamesOwn declarations actors names ∧
      ∀ resolved' σ, Reimported resolved resolved' σ →
        ∃ names', resolved'.selectedDeclarationNames (selected.map (DeclId.renumber σ))
            (actors.map (DeclId.renumber σ)) = .ok names' ∧
          ∀ id, names'.get (id.renumber σ) = names.get id := by
  obtain ⟨names, hnames, hown⟩ := selectedDeclarationNames_ok hdeclarations hdistinct
  exact ⟨names, hnames, hown, fun resolved' σ h => h.selectedDeclarationNames hnames⟩

/-! ## a keeper of two stores -/

/-- the app and its actor with the state, and `fn load()` of a file -/
def vaultId : DeclId := ⟨0, .app, 0⟩
def keeperId : DeclId := ⟨0, .actor, 0⟩
def keeperStateId : DeclId := ⟨0, .state, 0⟩
def loadId (id : ModuleId) : DeclId := ⟨id, .function, 0⟩

/-- `import first as first; import second as second; … app Vault { actor Keeper; }`, and two files
with `fn load()` -/
def vaultGraph (first second : String) : ModuleGraph where
  modules := [⟨"root.ag", [], [⟨"S", [], none⟩], [], [⟨"Keeper", "S", [], [⟨"keep", [], [], [], []⟩]⟩],
      [], [⟨"Vault", ["Keeper"]⟩]⟩,
    ⟨first ++ ".ag", [], [], ["load"], [], [], []⟩, ⟨second ++ ".ag", [], [], ["load"], [], [], []⟩]
  imports := [[⟨1, some first⟩, ⟨2, some second⟩], [], []]
  length_eq := rfl
  targets_lt := by simp

def vaultTable (m z : ModuleId) : NamespaceTable :=
  ⟨[.ofList [("Keeper", .declaration keeperId), ("S", .declaration keeperStateId),
      ("Vault", .declaration vaultId), ("m", .namespaceOf m), ("z", .namespaceOf z)],
    .ofList [("load", .declaration (loadId 1))], .ofList [("load", .declaration (loadId 2))]]⟩

theorem vaultTable_eq : NamespaceTable.new (vaultGraph "m" "z") = .ok (vaultTable 1 2) := by
  have hinitial : initialCandidates (vaultGraph "m" "z") = .ok _ := rfl
  refine bind_eq_ok.mpr ⟨_, hinitial, bind_eq_ok.mpr ⟨(vaultTable 1 2).exports, ?_, rfl⟩⟩
  rw [show closeCandidates _ _ = _ from Saturate.saturate_of_eq _ rfl]
  rfl

theorem permuted_vaultTable_eq :
    NamespaceTable.new (vaultGraph "z" "m") = .ok (vaultTable 2 1) := by
  have hinitial : initialCandidates (vaultGraph "z" "m") = .ok _ := rfl
  refine bind_eq_ok.mpr ⟨_, hinitial, bind_eq_ok.mpr ⟨(vaultTable 2 1).exports, ?_, rfl⟩⟩
  rw [show closeCandidates _ _ = _ from Saturate.saturate_of_eq _ rfl]
  rfl

/-- what the binder records for a declaration that refers to others, some of them by name -/
def vaultBinding (declarations : List DeclId) (names : List (String × DeclId)) :
    DeclarationBindings where
  declarations := .ofList declarations
  apps := ∅
  names := .ofList (names.map fun name => (name.1, .declaration name.2))
  sites := fun _ => none
  localNames := ∅
  runtimeTexts := []

/-- the keeper calls `m::load` and `z::load` -/
def vaultRecorded (m z : ModuleId) : List (DeclId × DeclarationBindings) :=
  [(vaultId, vaultBinding [keeperId] [("Keeper", keeperId)]),
    (keeperId, vaultBinding [keeperStateId, loadId m, loadId z]
      [("S", keeperStateId), ("m::load", loadId m), ("z::load", loadId z)]),
    (keeperStateId, vaultBinding [] []), (loadId m, vaultBinding [] []),
    (loadId z, vaultBinding [] [])]

theorem vaultBinding_renumber (σ : Equiv.Perm ModuleId) (declarations : List DeclId)
    (names : List (String × DeclId)) : (vaultBinding declarations names).renumber σ =
      vaultBinding (declarations.map (DeclId.renumber σ))
        (names.map fun name => (name.1, name.2.renumber σ)) := by
  have hdeclarations : BTreeSet.ofList ((BTreeSet.ofList declarations).toList.map
      (DeclId.renumber σ)) = .ofList (declarations.map (DeclId.renumber σ)) := by
    apply BTreeSet.ext_mem
    intro id
    simp
  have hnames : (vaultBinding declarations names).names.mapValues (ResolvedName.renumber σ) =
      (vaultBinding (declarations.map (DeclId.renumber σ))
        (names.map fun name => (name.1, name.2.renumber σ))).names := by
    apply BTreeMap.ext_get
    intro name
    have hmap := BTreeMap.get_ofList_map Function.injective_id (ResolvedName.renumber σ)
      (names.map fun name => (name.1, ResolvedName.declaration name.2)) name
    rw [List.map_map] at hmap
    show _ = (BTreeMap.ofList ((names.map _).map _)).get name
    rw [List.map_map]
    exact hmap.symm
  unfold DeclarationBindings.renumber
  rw [hnames]
  show (⟨BTreeSet.ofList ((BTreeSet.ofList declarations).toList.map (DeclId.renumber σ)), _, _, _, _,
    _⟩ : DeclarationBindings) = _
  rw [hdeclarations]
  rfl

/-- the two stores, in either order -/
def Stores (m z : ModuleId) : Prop := (m = 1 ∧ z = 2) ∨ (m = 2 ∧ z = 1)

theorem vaultGraph_hasDecl {first second : String} {m z : ModuleId} (h : Stores m z) :
    ∀ id ∈ [keeperId, keeperStateId, loadId m, loadId z], (vaultGraph first second).HasDecl id := by
  intro id hid
  simp only [List.mem_cons, List.not_mem_nil, or_false] at hid
  obtain rfl | rfl | rfl | rfl := hid
  · exact ⟨_, rfl, Nat.zero_lt_one⟩
  · exact ⟨_, rfl, Nat.zero_lt_one⟩
  · obtain ⟨rfl, -⟩ | ⟨rfl, -⟩ := h
    · exact ⟨_, rfl, Nat.zero_lt_one⟩
    · exact ⟨_, rfl, Nat.zero_lt_one⟩
  · obtain ⟨-, rfl⟩ | ⟨-, rfl⟩ := h
    · exact ⟨_, rfl, Nat.zero_lt_one⟩
    · exact ⟨_, rfl, Nat.zero_lt_one⟩

theorem vaultRecorded_declarations {m z : ModuleId} {item : DeclId × DeclarationBindings}
    (h : item ∈ vaultRecorded m z) : item.2.apps = ∅ ∧
      ∀ id ∈ item.2.declarations, id ∈ [keeperId, keeperStateId, loadId m, loadId z] := by
  simp only [vaultRecorded, List.mem_cons, List.not_mem_nil, or_false] at h
  obtain rfl | rfl | rfl | rfl | rfl := h
  · refine ⟨rfl, fun id hid => ?_⟩
    rw [List.mem_singleton.mp (BTreeSet.mem_ofList.mp hid)]
    exact List.mem_cons_self
  · exact ⟨rfl, fun id hid => List.mem_cons_of_mem _ (BTreeSet.mem_ofList.mp hid)⟩
  · exact ⟨rfl, fun id hid => absurd (BTreeSet.mem_ofList.mp hid) List.not_mem_nil⟩
  · exact ⟨rfl, fun id hid => absurd (BTreeSet.mem_ofList.mp hid) List.not_mem_nil⟩
  · exact ⟨rfl, fun id hid => absurd (BTreeSet.mem_ofList.mp hid) List.not_mem_nil⟩

def vault (first second : String) (m z : ModuleId) (hstores : Stores m z)
    (htable : NamespaceTable.new (vaultGraph first second) = .ok (vaultTable m z)) :
    ResolvedModules where
  program := ⟨vaultGraph first second, vaultTable m z, htable⟩
  root := 0
  bindings := .ofList (vaultRecorded m z)
  app_actors := by
    intro app decl happ reference hreference
    unfold ResolvedExports.appDecl at happ
    split_ifs at happ
    obtain ⟨found, hmodule, hindex⟩ := Option.bind_eq_some_iff.mp happ
    obtain ⟨id, kind, index⟩ := app
    match id with
    | 0 =>
      obtain rfl := Option.some.inj hmodule
      obtain rfl := List.mem_singleton.mp (List.mem_of_getElem? hindex)
      rw [List.mem_singleton.mp hreference,
        show pathSegments "Keeper" = ["Keeper"] from by decide +kernel]
      exact ⟨keeperId, rfl, rfl⟩
    | 1 =>
      obtain rfl := Option.some.inj hmodule
      cases hindex
    | 2 =>
      obtain rfl := Option.some.inj hmodule
      cases hindex
    | n + 3 => cases hmodule
  bound_declarations := by
    intro id recorded hget id' hid'
    have hrecorded := vaultRecorded_declarations (BTreeMap.mem_of_get_ofList hget)
    exact vaultGraph_hasDecl hstores id' (hrecorded.2 id' hid')
  bound_apps := by
    intro id recorded hget member hmember
    have hrecorded := vaultRecorded_declarations (BTreeMap.mem_of_get_ofList hget)
    rw [hrecorded.1] at hmember
    exact absurd hmember (BTreeSet.not_mem_empty member)

/-- the program, and the program with the imports of its root the other way round -/
def importedVault : ResolvedModules := vault "m" "z" 1 2 (.inl ⟨rfl, rfl⟩) vaultTable_eq
def reimportedVault : ResolvedModules := vault "z" "m" 2 1 (.inr ⟨rfl, rfl⟩) permuted_vaultTable_eq

theorem swap_three_up (n : Nat) : Equiv.swap 1 2 (n + 3) = n + 3 :=
  Equiv.swap_apply_of_ne_of_ne (by omega) (by omega)

theorem vault_reimported : Reimported importedVault reimportedVault (Equiv.swap 1 2) where
  graph := by
    constructor
    · intro id
      match id with
      | 0 => rfl
      | 1 => rfl
      | 2 => rfl
      | n + 3 =>
        rw [swap_three_up]
        rfl
    · intro id
      match id with
      | 0 => exact List.Perm.swap _ _ _
      | 1 => exact .nil
      | 2 => exact .nil
      | n + 3 =>
        rw [swap_three_up]
        exact .nil
  root := rfl
  order := by
    intro id id' hlt hlength hpath
    have hdistinct : ∀ id' ∈ List.range 3, ∀ id ∈ List.range id',
        pathComponents (importedVault.program.modulePath id) ≠
          pathComponents (importedVault.program.modulePath id') := by decide +kernel
    exact absurd hpath (hdistinct id' (List.mem_range.mpr hlength) id (List.mem_range.mpr hlt))
  bindings := by
    intro id
    have hlist : vaultRecorded 2 1 = (vaultRecorded 1 2).map fun item =>
        (item.1.renumber (Equiv.swap 1 2), item.2.renumber (Equiv.swap 1 2)) := by
      unfold vaultRecorded
      simp only [List.map_cons, List.map_nil, vaultBinding_renumber]
      rfl
    show (BTreeMap.ofList (vaultRecorded 2 1)).get _ = _
    rw [hlist]
    exact BTreeMap.get_ofList_map (DeclId.renumber_injective _) _ (vaultRecorded 1 2) id

theorem vault_declarations : ∃ declarations,
    importedVault.selectedDeclarations (some vaultId) = .ok declarations ∧
      keeperId ∈ declarations ∧ loadId 1 ∈ declarations ∧ loadId 2 ∈ declarations := by
  have hactors : importedVault.appActorIds vaultId = .ok [keeperId] := rfl
  have hkeeper : keeperId ∈ importedVault.rootDeclarations.filter (fun id =>
      id.kind ≠ .actor ∧ id.kind ≠ .app) ++ [keeperId] :=
    List.mem_append_right _ (List.mem_singleton_self _)
  have hload : ∀ id ∈ [loadId 1, loadId 2], importedVault.RefersTo keeperId id := by
    intro id hid
    refine ⟨_, rfl, BTreeSet.mem_ofList.mpr ?_⟩
    exact List.mem_cons_of_mem _ hid
  refine ⟨_, bind_eq_ok.mpr ⟨_, hactors, rfl⟩, ?_, ?_, ?_⟩
  · exact ResolvedModules.mem_declarationClosure.mpr ⟨keeperId, hkeeper, .refl⟩
  · exact ResolvedModules.mem_declarationClosure.mpr
      ⟨keeperId, hkeeper, .single (hload _ (by simp))⟩
  · exact ResolvedModules.mem_declarationClosure.mpr
      ⟨keeperId, hkeeper, .single (hload _ (by simp))⟩

/-- the keeper keeps its name, both `load` are named apart, and the other order of the imports gives
the same names -/
theorem vault_names_own : ∃ names names' first second,
    importedVault.selectedDeclarationNames (some vaultId) [keeperId] = .ok names ∧
    reimportedVault.selectedDeclarationNames (some vaultId) [keeperId] = .ok names' ∧
    names.get keeperId = some "Keeper" ∧ names'.get keeperId = some "Keeper" ∧
    names.get (loadId 1) = some first ∧ names'.get (loadId 2) = some first ∧
    names.get (loadId 2) = some second ∧ names'.get (loadId 1) = some second ∧
    first ≠ second := by
  obtain ⟨declarations, hdeclarations, -, hfirst, hsecond⟩ := vault_declarations
  have hdistinct : ([keeperId].map importedVault.sourceName).Nodup := List.nodup_singleton _
  obtain ⟨names, hnames, hown, hother⟩ :=
    importedVault.selectedDeclarationNames_own hdeclarations hdistinct
  obtain ⟨names', hnames', hsame⟩ := hother reimportedVault _ vault_reimported
  obtain ⟨first, hget⟩ := Option.isSome_iff_exists.mp ((hown.named _).mpr (.inr hfirst))
  obtain ⟨second, hget'⟩ := Option.isSome_iff_exists.mp ((hown.named _).mpr (.inr hsecond))
  have hkeeper : names.get keeperId = some "Keeper" := hown.kept _ (List.mem_singleton_self _)
  refine ⟨names, names', first, second, hnames, hnames', hkeeper, (hsame keeperId).trans hkeeper,
    hget, (hsame (loadId 1)).trans hget, hget', (hsame (loadId 2)).trans hget', ?_⟩
  rintro rfl
  exact absurd (hown.distinct _ _ _ hget hget') (by decide)

end Argent.Resolve
