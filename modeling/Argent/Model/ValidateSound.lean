import Argent.Model.Validate

/-!
# What validation establishes

* `RouteValidated`      the facts about one route that passed `validateRoute`;
* `EntryValidated`      the facts about an entry that passed `validateEntry`;
* `validateEntry_ok`    **a validated entry has them**.
-/

set_option linter.unusedSectionVars false

namespace Argent.Model
open Argent.Fallible

variable {app : App} {actor : ActorModel} {entry : EntryModel}

/-- an actor of the selected app -/
def SelectedActor (app : App) (target : StaticActorId) : Prop :=
  ∃ id, target = .inApp id ∧ (app.actor? id).isSome = true

theorem requireSelectedActorTarget_ok {target : StaticActorId} {message : String}
    (h : requireSelectedActorTarget app target message = .ok ()) : SelectedActor app target := by
  unfold requireSelectedActorTarget at h
  cases target with
  | linked id => cases h
  | inApp id =>
    dsimp only at h
    split at h
    · exact ⟨id, rfl, by assumption⟩
    · cases h

/-- the facts about a route that passed validation -/
structure RouteValidated (app : App) (actor : ActorModel) (entry : EntryModel) (route : EntryRoute) :
    Prop where
  targets : ∃ targets output, routeTargetIds actor entry route = .ok targets ∧
    routeOutput entry route = some output ∧
    (∀ target ∈ targets, target ∈ output.target.staticActors) ∧
    (output.cardinality.isRange = true ↔ successorArity route.successor = .many)
  selected : ∀ bound arity state, route.successor = .constructed bound arity state →
    ∀ targets, routeTargetIds actor entry route = .ok targets →
      ∀ target ∈ targets, SelectedActor app target

theorem validateRouteAllowed_ok {route : EntryRoute}
    (h : validateRouteAllowed actor entry route = .ok ()) :
    ∃ targets output, routeTargetIds actor entry route = .ok targets ∧
      routeOutput entry route = some output ∧
      (∀ target ∈ targets, target ∈ output.target.staticActors) ∧
      (output.cardinality.isRange = true ↔ successorArity route.successor = .many) := by
  obtain ⟨targets, htargets, h⟩ := bind_eq_ok.mp h
  refine ⟨targets, ?_⟩
  dsimp only at h
  split at h
  · cases h
  · cases houtput : routeOutput entry route with
    | none => rw [houtput] at h; cases h
    | some output =>
      rw [houtput] at h
      dsimp only at h
      split at h
      · cases h
      · rename_i hone
        split at h
        · cases h
        · rename_i hmany
          split at h
          · rename_i hall
            refine ⟨output, htargets, rfl, hall, ?_⟩
            cases hrange : output.cardinality.isRange <;>
              cases harity : successorArity route.successor <;> simp_all
          · cases h

theorem validateRoute_ok {route : EntryRoute} (h : validateRoute app actor entry route = .ok ()) :
    RouteValidated app actor entry route := by
  unfold validateRoute at h
  cases hsuccessor : route.successor with
  | exactSelf =>
    rw [hsuccessor] at h
    refine ⟨validateRouteAllowed_ok h, fun bound arity state heq => ?_⟩
    rw [hsuccessor] at heq
    cases heq
  | constructed bound arity state =>
    rw [hsuccessor] at h
    obtain ⟨targets, htargets, h⟩ := bind_eq_ok.mp h
    obtain ⟨_, hselected, h⟩ := bind_eq_ok.mp h
    refine ⟨validateRouteAllowed_ok h, fun _ _ _ _ targets' htargets' target hmem => ?_⟩
    rw [htargets] at htargets'
    rw [← Except.ok.inj htargets'] at hmem
    exact requireSelectedActorTarget_ok (forM_ok_of_mem hselected hmem)

/-- the facts about an entry that passed validation -/
structure EntryValidated (app : App) (actor : ActorModel) (entry : EntryModel) : Prop where
  delegate : entry.kind = .delegate → entry.genesisGroups = [] ∧
    entry.current.inputs.items ≠ [] ∧ entry.routes = []
  consumes : ∀ item ∈ entry.current.inputs.items, ∃ target,
    item.target.singleStaticActor = some target ∧ SelectedActor app target
  handles : (entry.current.outputs.items.map (·.handle)).Nodup
  emits : ∀ item ∈ entry.current.outputs.items, ∃ targets, item.target = .static targets ∧
    ∀ target ∈ targets, SelectedActor app target
  routes : ∀ route ∈ entry.routes, RouteValidated app actor entry route
  coverage : validateNamedOutputCoverage actor entry = .ok ()

theorem validateDelegate_ok (h : validateDelegate actor entry = .ok ())
    (hkind : entry.kind = .delegate) : entry.genesisGroups = [] ∧
      entry.current.inputs.items ≠ [] ∧ entry.routes = [] := by
  unfold validateDelegate at h
  split at h
  · cases h
  · rename_i hspawn
    split at h
    · cases h
    · rename_i hconsume
      split at h
      · cases h
      · rename_i hroute
        refine ⟨?_, fun hnil => hconsume ⟨hkind, hnil⟩, ?_⟩
        · exact not_not.mp fun hne => hspawn ⟨hkind, hne⟩
        · exact not_not.mp fun hne => hroute ⟨hkind, hne⟩

theorem validateConsume_ok {item : EntryInteraction}
    (h : validateConsume app actor entry item = .ok ()) :
    ∃ target, item.target.singleStaticActor = some target ∧ SelectedActor app target := by
  unfold validateConsume at h
  cases htarget : item.target.singleStaticActor with
  | none => rw [htarget] at h; cases h
  | some target =>
    rw [htarget] at h
    exact ⟨target, rfl, requireSelectedActorTarget_ok h⟩

theorem validateEmit_ok {seen names : List String} {item : EntryInteraction}
    (h : validateEmit app actor entry seen item = .ok names) :
    item.handle ∉ seen ∧ names = seen ++ [item.handle] ∧
      ∃ targets, item.target = .static targets ∧ ∀ target ∈ targets, SelectedActor app target := by
  unfold validateEmit at h
  split at h
  · cases h
  · rename_i hnew
    cases htarget : item.target with
    | source _ | unresolvedStatic _ => rw [htarget] at h; cases h
    | static targets =>
      rw [htarget] at h
      obtain ⟨_, hall, hnames⟩ := bind_eq_ok.mp h
      refine ⟨hnew, (pure_eq_ok.mp hnames).symm, targets, rfl, fun target hmem => ?_⟩
      exact requireSelectedActorTarget_ok (forM_ok_of_mem hall hmem)

theorem validateEmits_ok {names : List String} (h : validateEmits app actor entry = .ok names) :
    (entry.current.outputs.items.map (·.handle)).Nodup ∧
      ∀ item ∈ entry.current.outputs.items, ∃ targets, item.target = .static targets ∧
        ∀ target ∈ targets, SelectedActor app target := by
  have hfold := foldlM_ok (fun done names => names = done.map (·.handle) ∧ names.Nodup ∧
      ∀ item ∈ done, ∃ targets, item.target = .static targets ∧
        ∀ target ∈ targets, SelectedActor app target) h
    ⟨rfl, List.nodup_nil, fun item hmem => absurd hmem List.not_mem_nil⟩ (by
      intro done seen item seen' _ ⟨hseen, hnodup, hdone⟩ hstep
      obtain ⟨hnew, hseen', htargets⟩ := validateEmit_ok hstep
      refine ⟨by rw [hseen', hseen, List.map_append, List.map_singleton], ?_, fun other hother => ?_⟩
      · rw [hseen', List.nodup_append]
        refine ⟨hnodup, List.nodup_singleton _, fun a ha b hb => ?_⟩
        rw [List.mem_singleton.mp hb]
        exact fun heq => hnew (heq ▸ ha)
      · obtain hother | hother := List.mem_append.mp hother
        · exact hdone other hother
        · rw [List.mem_singleton.mp hother]
          exact htargets)
  exact ⟨hfold.1 ▸ hfold.2.1, hfold.2.2⟩

/-- **A validated entry has every checked fact.** -/
theorem validateEntry_ok (h : validateEntry app actor entry = .ok ()) :
    EntryValidated app actor entry := by
  obtain ⟨_, hdelegate, h⟩ := bind_eq_ok.mp h
  obtain ⟨_, hconsumes, h⟩ := bind_eq_ok.mp h
  obtain ⟨names, hemits, h⟩ := bind_eq_ok.mp h
  obtain ⟨_, hroutes, hcoverage⟩ := bind_eq_ok.mp h
  obtain ⟨hhandles, htargets⟩ := validateEmits_ok hemits
  exact {
    delegate := validateDelegate_ok hdelegate
    consumes := fun item hmem => validateConsume_ok (forM_ok_of_mem hconsumes hmem)
    handles := hhandles
    emits := htargets
    routes := fun route hmem => validateRoute_ok (forM_ok_of_mem hroutes hmem)
    coverage := hcoverage }

end Argent.Model
