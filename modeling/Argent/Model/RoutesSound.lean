import Argent.Model.Layout
import Argent.Routing.CutNodes
import Argent.Routing.RoutePlanSound

/-!
# The routes of an app

What the adapter hands to the planner and what it makes of the planned families.

* `Extends`                 what one entry adds to the planner's inputs;
* `Collected`               the inputs once some actors are visited;
* `routeInputs_collected`   **the inputs of an app**;
* `Inferred`                an accepted inference beside its planner inputs and plan;
* `Inferred.family_inj`     distinct families have distinct identities.
-/

set_option linter.unusedSectionVars false
set_option linter.unusedVariables false

namespace Argent.Model
open Argent.Routing Argent.Fallible RouteGraph

/-! ## planner inputs -/

/-- one visit of the app extends the inputs: actors of the app and selectors are added -/
structure Extends (app : App) (inputs inputs' : RouteInputs) : Prop where
  domains : inputs'.domains = inputs.domains
  selectors : ∀ r ∈ inputs.selectors, r ∈ inputs'.selectors
  kept : ∀ x ∈ inputs.graph.actors, x ∈ inputs'.graph.actors
  selected : ∀ x ∈ inputs'.graph.actors, x ∈ inputs.graph.actors ∨ x ∈ app.actors.map (·.name)
  consumes : ∀ a, ∀ x ∈ inputs.graph.directConsumes a, x ∈ inputs'.graph.directConsumes a
  emits : ∀ a, ∀ x ∈ inputs.graph.emitTargets a, x ∈ inputs'.graph.emitTargets a
  pairs : ∀ p ∈ inputs.transitionPairs, p ∈ inputs'.transitionPairs

theorem Extends.refl (app : App) (inputs : RouteInputs) : Extends app inputs inputs :=
  ⟨rfl, fun _ h => h, fun _ h => h, fun _ h => Or.inl h, fun _ _ h => h, fun _ _ h => h,
    fun _ h => h⟩

theorem Extends.trans {app : App} {i j k : RouteInputs} (h : Extends app i j)
    (h' : Extends app j k) : Extends app i k := by
  refine ⟨h'.domains.trans h.domains, fun r hr => h'.selectors r (h.selectors r hr),
    fun x hx => h'.kept x (h.kept x hx), fun x hx => ?_,
    fun a x hx => h'.consumes a x (h.consumes a x hx),
    fun a x hx => h'.emits a x (h.emits a x hx), fun p hp => h'.pairs p (h.pairs p hp)⟩
  obtain hx | hx := h'.selected x hx
  · exact h.selected x hx
  · exact Or.inr hx

theorem Extends.foldl {α : Type} {app : App} {f : RouteInputs → α → RouteInputs} {l : List α}
    (hstep : ∀ a ∈ l, ∀ inputs, Extends app inputs (f inputs a)) (inputs : RouteInputs) :
    Extends app inputs (l.foldl f inputs) := by
  induction l generalizing inputs with
  | nil => exact Extends.refl app inputs
  | cons a l ih =>
    rw [List.foldl_cons]
    exact (hstep a List.mem_cons_self inputs).trans
      (ih (fun b hb => hstep b (List.mem_cons_of_mem _ hb)) _)

theorem Extends.foldl_visit {α : Type} {app : App} {f : RouteInputs → α → RouteInputs} {l : List α}
    (hstep : ∀ a ∈ l, ∀ inputs, Extends app inputs (f inputs a)) {a : α} (ha : a ∈ l)
    (inputs : RouteInputs) : ∃ i, Extends app (f i a) (l.foldl f inputs) := by
  obtain ⟨pre, post, rfl⟩ := List.append_of_mem ha
  rw [List.foldl_append, List.foldl_cons]
  exact ⟨_, Extends.foldl (fun b hb => hstep b (List.mem_append_right _
    (List.mem_cons_of_mem _ hb))) _⟩

theorem selectedActor_eq_some {app : App} {target : StaticActorId} {id : DeclId} :
    selectedActor app target = some id ↔
      target = .inApp id ∧ id ∈ app.actors.map (·.name) := by
  cases target with
  | linked other =>
    refine ⟨fun h => ?_, fun h => ?_⟩
    · cases h
    · cases h.1
  | inApp other =>
    unfold selectedActor
    dsimp only
    by_cases hs : (app.actor? other).isSome = true
    · rw [if_pos hs, Option.some_inj, StaticActorId.inApp.injEq]
      exact ⟨fun h => ⟨h, h ▸ App.actor?_isSome.mp hs⟩, fun h => h.1⟩
    · rw [if_neg hs]
      refine ⟨fun h => ?_, fun ⟨h, hid⟩ => ?_⟩
      · cases h
      · cases h
        exact absurd (App.actor?_isSome.mpr hid) hs

theorem mem_selectedTargets {app : App} {section_ : InteractionSection} {id : DeclId} :
    id ∈ selectedTargets app section_ ↔
      id ∈ app.actors.map (·.name) ∧ ∃ interaction ∈ section_.items,
        .inApp id ∈ interaction.target.staticActors := by
  unfold selectedTargets
  simp only [List.mem_flatMap, List.mem_filterMap, selectedActor_eq_some]
  constructor
  · intro ⟨interaction, hmem, target, htarget, h, hid⟩
    exact ⟨hid, interaction, hmem, h ▸ htarget⟩
  · intro ⟨hid, interaction, hmem, htarget⟩
    exact ⟨interaction, hmem, _, htarget, rfl, hid⟩

section
variable {app : App} {actor : DeclId} (ha : actor ∈ app.actors.map (·.name))
include ha

theorem addGroupInput_extends {target : DeclId} (ht : target ∈ app.actors.map (·.name))
    (inputs : RouteInputs) : Extends app inputs (addGroupInput app actor inputs target) := by
  unfold addGroupInput
  split
  · exact Extends.refl app inputs
  · refine ⟨rfl, fun _ h => h, fun x hx => ?_, fun x hx => ?_, fun a x hx => ?_, fun _ _ h => h,
      fun _ h => h⟩
    · exact BTreeSet.mem_insert.mpr (Or.inr (BTreeSet.mem_insert.mpr (Or.inr hx)))
    · obtain hx | hx := BTreeSet.mem_insert.mp hx
      · exact Or.inr (hx ▸ ht)
      obtain hx | hx := BTreeSet.mem_insert.mp hx
      · exact Or.inr (hx ▸ ha)
      · exact Or.inl hx
    · exact mem_directConsumes_addConsume.mpr (Or.inl hx)

theorem addGroupOutput_extends {target : DeclId} (ht : target ∈ app.actors.map (·.name))
    (inputs : RouteInputs) : Extends app inputs (addGroupOutput actor inputs target) := by
  unfold addGroupOutput
  by_cases hne : actor ≠ target
  · rw [if_pos hne]
    refine ⟨rfl, fun _ h => h, fun x hx => ?_, fun x hx => ?_, fun _ _ h => h, fun a x hx => ?_,
      fun _ h => BTreeSet.mem_insert.mpr (Or.inr h)⟩
    · exact BTreeSet.mem_insert.mpr (Or.inr (BTreeSet.mem_insert.mpr (Or.inr hx)))
    · obtain hx | hx := BTreeSet.mem_insert.mp hx
      · exact Or.inr (hx ▸ ht)
      obtain hx | hx := BTreeSet.mem_insert.mp hx
      · exact Or.inr (hx ▸ ha)
      · exact Or.inl hx
    · exact mem_emitTargets_addEmit.mpr (Or.inl hx)
  · rw [if_neg hne]
    exact ⟨rfl, fun _ h => h, fun _ h => h, fun _ h => Or.inl h, fun _ _ h => h, fun _ _ h => h,
      fun _ h => BTreeSet.mem_insert.mpr (Or.inr h)⟩

theorem addGroup_extends (group : CovenantGroup) (inputs : RouteInputs) :
    Extends app inputs (addGroup app actor inputs group) := by
  unfold addGroup
  exact (Extends.foldl (fun t ht i => addGroupInput_extends ha (mem_selectedTargets.mp ht).1 i)
    inputs).trans
      (Extends.foldl (fun t ht i => addGroupOutput_extends ha (mem_selectedTargets.mp ht).1 i) _)

/-- a visited input is consumed, unless a singleton app consumes its own actor -/
theorem addGroup_consumed {group : CovenantGroup} {target : DeclId}
    (ht : target ∈ selectedTargets app group.inputs)
    (hself : ¬ app.isSingletonActorSelfTarget actor target = true) (inputs : RouteInputs) :
    target ∈ (addGroup app actor inputs group).graph.directConsumes actor := by
  obtain ⟨i, hi⟩ := Extends.foldl_visit
    (fun t ht i => addGroupInput_extends ha (mem_selectedTargets.mp ht).1 i) ht inputs
  refine (hi.trans (Extends.foldl (fun t ht i =>
    addGroupOutput_extends ha (mem_selectedTargets.mp ht).1 i) _)).consumes _ _ ?_
  unfold addGroupInput
  rw [if_neg hself]
  exact mem_directConsumes_addConsume.mpr (Or.inr ⟨rfl, rfl⟩)

/-- a visited output has a planned transition, and is emitted unless it is the actor itself -/
theorem addGroup_emitted {group : CovenantGroup} {target : DeclId}
    (ht : target ∈ selectedTargets app group.outputs) (inputs : RouteInputs) :
    toLex (actor, target) ∈ (addGroup app actor inputs group).transitionPairs ∧
      (actor ≠ target → target ∈ (addGroup app actor inputs group).graph.emitTargets actor) := by
  obtain ⟨i, hi⟩ := Extends.foldl_visit
    (fun t ht i => addGroupOutput_extends ha (mem_selectedTargets.mp ht).1 i) ht
    ((selectedTargets app group.inputs).foldl (addGroupInput app actor) inputs)
  refine ⟨hi.pairs _ (BTreeSet.mem_insert.mpr (Or.inl rfl)), fun hne => hi.emits _ _ ?_⟩
  unfold addGroupOutput
  dsimp only
  rw [if_pos hne]
  exact mem_emitTargets_addEmit.mpr (Or.inr ⟨rfl, rfl⟩)

end

/-- the requirement made of a selector -/
def RequirementOf (actor : ActorModel) (selector : TemplateSelector)
    (r : SelectorRequirement DeclId DeclId) : Prop :=
  r.domain = actor.state ∧ r.source = actor.name ∧ selector.targets = r.variants.map .inApp

theorem selectorVariantName_ok {app : App} {actor : ActorModel} {selector : TemplateSelector}
    {target : StaticActorId} {id : DeclId}
    (h : selectorVariantName app actor selector target = .ok id) : target = .inApp id := by
  unfold selectorVariantName at h
  cases target with
  | linked _ => cases h
  | inApp other =>
    dsimp only at h
    split at h
    · cases h
    · split at h
      · cases h
      · cases h
        rfl

theorem selectorRequirement_ok {app : App} {actor : ActorModel} {selector : TemplateSelector}
    {r : SelectorRequirement DeclId DeclId} (h : selectorRequirement app actor selector = .ok r) :
    RequirementOf actor selector r := by
  unfold selectorRequirement at h
  split at h
  · cases h
  · obtain ⟨variants, hv, h⟩ := bind_eq_ok.mp h
    rw [pure_eq_ok] at h
    rw [← h]
    exact ⟨rfl, rfl, eq_map_of_mapM_ok hv fun target id => selectorVariantName_ok⟩

/-- what the inputs contain once an entry was visited -/
structure EntryVisited (app : App) (actor : ActorModel) (entry : EntryModel) (inputs : RouteInputs) :
    Prop where
  selectors : ∀ selector ∈ entry.templateSelectors,
    ∃ r ∈ inputs.selectors, RequirementOf actor selector r
  consumed : ∀ group ∈ entry.groups, ∀ target ∈ selectedTargets app group.inputs,
    ¬ app.isSingletonActorSelfTarget actor.name target = true →
      target ∈ inputs.graph.directConsumes actor.name
  emitted : ∀ group ∈ entry.groups, ∀ target ∈ selectedTargets app group.outputs,
    toLex (actor.name, target) ∈ inputs.transitionPairs ∧
      (actor.name ≠ target → target ∈ inputs.graph.emitTargets actor.name)

theorem EntryVisited.mono {app : App} {actor : ActorModel} {entry : EntryModel}
    {inputs inputs' : RouteInputs} (h : EntryVisited app actor entry inputs)
    (hext : Extends app inputs inputs') : EntryVisited app actor entry inputs' where
  selectors := fun selector hselector => by
    obtain ⟨r, hr, hreq⟩ := h.selectors selector hselector
    exact ⟨r, hext.selectors r hr, hreq⟩
  consumed := fun group hgroup target ht hself =>
    hext.consumes _ _ (h.consumed group hgroup target ht hself)
  emitted := fun group hgroup target ht => by
    obtain ⟨hpair, hemit⟩ := h.emitted group hgroup target ht
    exact ⟨hext.pairs _ hpair, fun hne => hext.emits _ _ (hemit hne)⟩

theorem addEntry_visited {app : App} {actor : ActorModel} (ha : actor ∈ app.actors)
    {entry : EntryModel} {inputs inputs' : RouteInputs}
    (h : addEntry app actor inputs entry = .ok inputs') :
    Extends app inputs inputs' ∧ EntryVisited app actor entry inputs' := by
  unfold addEntry at h
  obtain ⟨selectors, hsel, h⟩ := bind_eq_ok.mp h
  rw [pure_eq_ok] at h
  have hname := List.mem_map_of_mem (f := ActorModel.name) ha
  have hgroup := fun (group : CovenantGroup) (_ : group ∈ entry.groups) (i : RouteInputs) =>
    addGroup_extends hname group i
  have hfirst : Extends app inputs { inputs with selectors := inputs.selectors ++ selectors } :=
    ⟨rfl, fun r hr => List.mem_append_left _ hr, fun _ hx => hx, fun _ hx => Or.inl hx,
      fun _ _ hx => hx, fun _ _ hx => hx, fun _ hx => hx⟩
  have hext : Extends app { inputs with selectors := inputs.selectors ++ selectors } inputs' := by
    rw [← h]
    exact Extends.foldl hgroup _
  refine ⟨hfirst.trans hext, ⟨fun selector hselector => ?_, fun group hmem target ht hself => ?_,
    fun group hmem target ht => ?_⟩⟩
  · obtain ⟨r, hr, hreq⟩ := mapM_ok_of_mem hsel hselector
    exact ⟨r, hext.selectors r (List.mem_append_right _ hr), selectorRequirement_ok hreq⟩
  · obtain ⟨i, hi⟩ := Extends.foldl_visit hgroup hmem
      { inputs with selectors := inputs.selectors ++ selectors }
    rw [← h]
    exact hi.consumes _ _ (addGroup_consumed hname ht hself i)
  · obtain ⟨i, hi⟩ := Extends.foldl_visit hgroup hmem
      { inputs with selectors := inputs.selectors ++ selectors }
    obtain ⟨hpair, hemit⟩ := addGroup_emitted hname ht i
    rw [← h]
    exact ⟨hi.pairs _ hpair, fun hne => hi.emits _ _ (hemit hne)⟩

/-- the inputs once the actors of `done` are visited -/
structure Collected (app : App) (done : List ActorModel) (inputs : RouteInputs) : Prop where
  actors : ∀ actor ∈ done, actor.name ∈ inputs.graph.actors
  selected : ∀ x ∈ inputs.graph.actors, x ∈ app.actors.map (·.name)
  domain : ∀ actor ∈ done, (inputs.domains.get actor.state).isSome = true
  order : ∀ d order, inputs.domains.get d = some order →
    order = (done.filter fun actor => decide (actor.state = d)).map (·.name)
  entries : ∀ actor ∈ done, ∀ entry ∈ actor.entries, EntryVisited app actor entry inputs

theorem addActor_collected {app : App} {done : List ActorModel} {actor : ActorModel}
    (ha : actor ∈ app.actors) {inputs inputs' : RouteInputs} (hc : Collected app done inputs)
    (h : addActor app inputs actor = .ok inputs') : Collected app (done ++ [actor]) inputs' := by
  unfold addActor at h
  set first : RouteInputs := { inputs with
    graph := inputs.graph.addActor actor.name
    domains := inputs.domains.modify actor.state fun order => order ++ [actor.name] } with hfirst
  have hfold : Extends app first inputs' ∧ ∀ entry ∈ actor.entries,
      EntryVisited app actor entry inputs' := by
    refine foldlM_ok (fun entries i => Extends app first i ∧ ∀ entry ∈ entries,
      EntryVisited app actor entry i) h ?_ ?_
    · exact ⟨Extends.refl app first, fun entry hentry => absurd hentry List.not_mem_nil⟩
    · intro entries i entry i' _ ⟨hi, hvisited⟩ hstep
      obtain ⟨hext, hnew⟩ := addEntry_visited ha hstep
      refine ⟨hi.trans hext, fun e he => ?_⟩
      obtain he | he := List.mem_append.mp he
      · exact (hvisited e he).mono hext
      · rw [List.mem_singleton.mp he]
        exact hnew
  clear h
  obtain ⟨hext, hsel⟩ := hfold
  have hmem : ∀ x, x ∈ first.graph.actors ↔ x = actor.name ∨ x ∈ inputs.graph.actors :=
    fun x => BTreeSet.mem_insert
  have hget : ∀ d, inputs'.domains.get d =
      if d = actor.state then some (inputs.domains.getD actor.state ++ [actor.name])
      else inputs.domains.get d := by
    intro d
    rw [hext.domains]
    exact BTreeMap.get_modify actor.state d (fun order => order ++ [actor.name]) inputs.domains
  refine ⟨fun b hb => ?_, fun x hx => ?_, fun b hb => ?_, fun d order ho => ?_, fun b hb => ?_⟩
  · refine hext.kept _ ((hmem _).mpr ?_)
    obtain hb | hb := List.mem_append.mp hb
    · exact Or.inr (hc.actors b hb)
    · rw [List.mem_singleton.mp hb]
      exact Or.inl rfl
  · obtain hx | hx := hext.selected x hx
    · obtain hx | hx := (hmem x).mp hx
      · rw [hx]
        exact List.mem_map_of_mem ha
      · exact hc.selected x hx
    · exact hx
  · rw [hget]
    by_cases hd : b.state = actor.state
    · rw [if_pos hd]
      rfl
    · rw [if_neg hd]
      obtain hb | hb := List.mem_append.mp hb
      · exact hc.domain b hb
      · exact absurd (congrArg ActorModel.state (List.mem_singleton.mp hb)) hd
  · rw [hget] at ho
    rw [List.filter_append, List.map_append]
    by_cases hd : d = actor.state
    · rw [if_pos hd] at ho
      rw [← Option.some.inj ho, hd, List.filter_singleton, decide_eq_true rfl]
      congr 1
      unfold BTreeMap.getD
      cases hg : inputs.domains.get actor.state with
      | some old => exact hc.order _ old hg
      | none =>
        have hnone : done.filter (fun other => decide (other.state = actor.state)) = [] := by
          refine List.filter_eq_nil_iff.mpr fun other hother heq => ?_
          have hsome := hc.domain other hother
          rw [of_decide_eq_true heq, hg] at hsome
          cases hsome
        rw [hnone]
        rfl
    · rw [if_neg hd] at ho
      rw [List.filter_singleton, decide_eq_false (Ne.symm hd), hc.order d order ho]
      exact (List.append_nil _).symm
  · obtain hb | hb := List.mem_append.mp hb
    · intro entry hentry
      have hv := hc.entries b hb entry hentry
      have hfirst : EntryVisited app b entry first := ⟨hv.selectors, hv.consumed, hv.emitted⟩
      exact hfirst.mono hext
    · rw [List.mem_singleton.mp hb]
      exact hsel

/-- **The inputs of an app**: its actors, its states as domains and its selectors. -/
theorem routeInputs_collected {app : App} {inputs : RouteInputs} (h : routeInputs app = .ok inputs) :
    Collected app app.actors inputs := by
  refine foldlM_ok (Collected app) h ?_ fun done i actor i' ha hc => addActor_collected ha hc
  refine ⟨fun actor hmem => absurd hmem List.not_mem_nil, fun x hx => ?_,
    fun actor hmem => absurd hmem List.not_mem_nil, fun d order ho => ?_,
    fun actor hmem => absurd hmem List.not_mem_nil⟩
  · exact absurd hx (BTreeSet.not_mem_empty x)
  · cases ho

/-! ## planned families -/

/-- an accepted inference beside its planner inputs and its plan -/
structure Inferred (app : App) (plan : CompilerRoutePlan) (inputs : RouteInputs)
    (routes : RoutePlan DeclId DeclId) (constraints : CommitmentConstraints DeclId) : Prop where
  visited : routeInputs app = .ok inputs
  collected : Collected app app.actors inputs
  routed : routePlan inputs.graph inputs.domains inputs.selectors = .ok routes
  planned : PlannedRoutes inputs.graph inputs.domains inputs.selectors routes constraints
  lowered : compilerRoutePlan routes inputs.transitionPairs = .ok plan

theorem inferDirectRoutes_inferred {app : App} {plan : CompilerRoutePlan}
    (h : inferDirectRoutes app = .ok plan) :
    ∃ inputs routes constraints, Inferred app plan inputs routes constraints := by
  unfold inferDirectRoutes at h
  obtain ⟨inputs, hi, h⟩ := bind_eq_ok.mp h
  cases hr : routePlan inputs.graph inputs.domains inputs.selectors with
  | error e => rw [hr] at h; cases h
  | ok routes =>
    rw [hr] at h
    obtain ⟨constraints, hp⟩ := routePlan_planned hr
    exact ⟨inputs, routes, constraints, hi, routeInputs_collected hi, hr, hp, h⟩

namespace Inferred
variable {app : App} {plan : CompilerRoutePlan} {inputs : RouteInputs}
  {routes : RoutePlan DeclId DeclId} {constraints : CommitmentConstraints DeclId}
  (h : Inferred app plan inputs routes constraints)
include h

theorem plan_families : plan.families = routes.families.map compilerRouteFamily := by
  have hl := h.lowered
  unfold compilerRoutePlan at hl
  obtain ⟨leaves, _, hl⟩ := bind_eq_ok.mp hl
  obtain ⟨transitions, _, hl⟩ := bind_eq_ok.mp hl
  rw [pure_eq_ok] at hl
  rw [← hl]

theorem actors {actor : ActorModel} (ha : actor ∈ app.actors) : actor.name ∈ inputs.graph.actors :=
  h.collected.actors actor ha

theorem state_of_order {d : DeclId} {order : List DeclId} (ho : inputs.domains.get d = some order)
    {a : DeclId} (ha : a ∈ order) : ∃ actor ∈ app.actors, actor.name = a ∧ actor.state = d := by
  rw [h.collected.order d order ho] at ha
  obtain ⟨actor, hmem, hname⟩ := List.mem_map.mp ha
  obtain ⟨hmem, hstate⟩ := List.mem_filter.mp hmem
  exact ⟨actor, hmem, hname, of_decide_eq_true hstate⟩

theorem order_nodup {d : DeclId} {order : List DeclId} (ho : inputs.domains.get d = some order) :
    order.Nodup := by
  rw [h.collected.order d order ho]
  exact app.distinct.sublist (List.filter_sublist.map _)

/-- a family of the plan and the component that it comes from -/
theorem family_site {f : FamilyPlan DeclId DeclId} (hf : f ∈ routes.families) :
    ∃ order c, inputs.domains.get f.domain = some order ∧
      c ∈ inputs.graph.components (BTreeSet.ofList order) ∧ FamilyOf f.domain order c f := by
  obtain ⟨entry, he, p, hp, hof⟩ := h.planned.origin f hf
  obtain ⟨h1, h2, h3⟩ := mem_sitesOf.mp hp
  have hget := BTreeMap.mem_entries.mp he
  rw [← h1, ← h2] at hget
  rw [← h2] at h3
  rw [hof.domain]
  exact ⟨p.order, p.component, hget, h3, hof⟩

theorem member_state {f : FamilyPlan DeclId DeclId} (hf : f ∈ routes.families) {a : DeclId}
    (ha : a ∈ f.members) : ∃ actor ∈ app.actors, actor.name = a ∧ actor.state = f.domain := by
  obtain ⟨order, c, ho, _, hof⟩ := h.family_site hf
  rw [hof.members] at ha
  exact h.state_of_order ho (mem_orderedMembers.mp ha).1

theorem members_nodup {f : FamilyPlan DeclId DeclId} (hf : f ∈ routes.families) :
    f.members.Nodup := by
  obtain ⟨order, c, ho, _, hof⟩ := h.family_site hf
  rw [hof.members]
  exact (h.order_nodup ho).filter _

theorem family_cohort {f : FamilyPlan DeclId DeclId} (hf : f ∈ routes.families) :
    ∃ cohort ∈ constraints.cohorts, ∀ a ∈ f.members, a ∈ cohort := by
  obtain ⟨entry, he, p, hp, hof⟩ := h.planned.origin f hf
  exact ⟨p.component.members, (h.planned.cohorts _).mpr ⟨entry, he, p, hp, hof.nontrivial, rfl⟩,
    fun a ha => hof.mem_component ha⟩

theorem table_subset {f : FamilyPlan DeclId DeclId} (hf : f ∈ routes.families) :
    ∀ a ∈ f.table, a ∈ f.members := by
  obtain ⟨order, c, _, _, hof⟩ := h.family_site hf
  exact hof.table

theorem table_mem {f : FamilyPlan DeclId DeclId} (hf : f ∈ routes.families) :
    f.table ∈ constraints.families := by
  rw [h.planned.families]
  exact List.mem_map_of_mem hf

theorem family_unique {f f' : FamilyPlan DeclId DeclId} (hf : f ∈ routes.families)
    (hf' : f' ∈ routes.families) {a : DeclId} (ha : a ∈ f.members) (ha' : a ∈ f'.members) :
    f = f' := by
  refine h.planned.unique f hf f' hf' ?_ a ha ha'
  obtain ⟨actor, hmem, hname, hstate⟩ := h.member_state hf ha
  obtain ⟨actor', hmem', hname', hstate'⟩ := h.member_state hf' ha'
  have heq : actor = actor' := List.inj_on_of_nodup_map app.distinct hmem hmem'
    (hname.trans hname'.symm)
  rw [← hstate, ← hstate', heq]

theorem rep_member {f : FamilyPlan DeclId DeclId} (hf : f ∈ routes.families) :
    f.rep ∈ f.members := by
  obtain ⟨order, c, _, _, hof⟩ := h.family_site hf
  exact hof.rep

theorem rep_identifier {f : FamilyPlan DeclId DeclId} (hf : f ∈ routes.families) :
    isIdentifier f.rep = true := by
  obtain ⟨actor, hmem, hname, _⟩ := h.member_state hf (h.rep_member hf)
  rw [← hname]
  exact app.identifiers actor hmem

theorem rep_inj (hs : validateGeneratedActorSuffixes app = .ok ())
    {f f' : FamilyPlan DeclId DeclId} (hf : f ∈ routes.families) (hf' : f' ∈ routes.families)
    (hsnake : toSnake f.rep = toSnake f'.rep) : f = f' := by
  have hselected : ∀ {g}, g ∈ routes.families → g.rep ∈ app.actors.map (·.name) := by
    intro g hg
    obtain ⟨actor, hmem, hname, _⟩ := h.member_state hg (h.rep_member hg)
    rw [← hname]
    exact List.mem_map_of_mem hmem
  have hrep := toSnake_inj_of_validate hs (hselected hf) (hselected hf') hsnake
  exact h.family_unique hf hf' (h.rep_member hf) (hrep ▸ h.rep_member hf')

/-- **Distinct families have distinct identities**, as the generated suffixes are distinct. -/
theorem family_inj (hs : validateGeneratedActorSuffixes app = .ok ())
    {f f' : FamilyPlan DeclId DeclId} (hf : f ∈ routes.families) (hf' : f' ∈ routes.families)
    (hid : routeFamilyId f.domain f.rep = routeFamilyId f'.domain f'.rep) : f = f' :=
  h.rep_inj hs hf hf' (routeFamilyId_inj (h.rep_identifier hf) (h.rep_identifier hf') hid)

theorem tableName_inj (hs : validateGeneratedActorSuffixes app = .ok ())
    {f f' : FamilyPlan DeclId DeclId} (hf : f ∈ routes.families) (hf' : f' ∈ routes.families)
    (hname : hiddenRouteFamilyTableName (routeFamilyId f.domain f.rep) =
      hiddenRouteFamilyTableName (routeFamilyId f'.domain f'.rep)) : f = f' := by
  have hsuffix := generated_inj hname
  rw [routeFamilySuffix_routeFamilyId (h.rep_identifier hf),
    routeFamilySuffix_routeFamilyId (h.rep_identifier hf')] at hsuffix
  exact h.rep_inj hs hf hf' hsuffix

theorem table_nodup {f : FamilyPlan DeclId DeclId} (hf : f ∈ routes.families) : f.table.Nodup :=
  ((commitmentPlan_families h.planned.commitments).2.1 _ (h.table_mem hf)).2.1

theorem families_nodup : routes.families.Nodup := by
  have hnd := (commitmentPlan_families h.planned.commitments).1
  rw [h.planned.families] at hnd
  exact List.Nodup.of_map _ hnd

theorem find_table {f : FamilyPlan DeclId DeclId} (hf : f ∈ routes.families) :
    routes.families.find? (fun family => decide (family.table = f.table)) = some f := by
  obtain ⟨hne, _, _⟩ := (commitmentPlan_families h.planned.commitments).2.1 _ (h.table_mem hf)
  obtain ⟨x, hx⟩ := List.exists_mem_of_ne_nil _ hne
  cases hfind : routes.families.find? (fun family => decide (family.table = f.table)) with
  | none => exact absurd (decide_eq_true rfl) (List.find?_eq_none.mp hfind f hf)
  | some f' =>
    have htable := List.find?_some
      (p := fun family : FamilyPlan DeclId DeclId => decide (family.table = f.table)) hfind
    have hf' := List.mem_of_find?_eq_some hfind
    have hx' : x ∈ f'.table := by
      rw [of_decide_eq_true htable]
      exact hx
    rw [h.family_unique hf' hf (h.table_subset hf' x hx') (h.table_subset hf x hx)]

end Inferred

end Argent.Model
