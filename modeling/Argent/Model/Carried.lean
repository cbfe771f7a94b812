import Argent.Model.LayoutSound
import Argent.Model.ValidateSound
import Argent.Model.Witnesses

/-!
# What the planned cuts carry

The planned cuts of a compiled app in the compiler's terms: families, generated fields and route
transitions.

* `mem_generatedFields`      the fields of an actor, by the nodes of its cut;
* `Transforms`               what a route transition does to a cut;
* `Carriage`                 what holds of the cuts of all actors and of the entries;
* `CompiledApp.carriage`     **the cuts of a compiled app**.
-/

set_option linter.unusedSectionVars false

namespace Argent.Model
open Argent.Routing Argent.Fallible

/-- the node that stands for the whole table -/
def RouteFamily.branch (family : RouteFamily) : CommitmentNode DeclId :=
  .branch (family.tableActors.map .leaf)

namespace Inferred
variable {app : App} {plan : CompilerRoutePlan} {inputs : RouteInputs}
  {routes : RoutePlan DeclId DeclId} {constraints : CommitmentConstraints DeclId}
  (h : Inferred app plan inputs routes constraints)
include h

/-! ## families -/

theorem mem_plan_families {family : RouteFamily} :
    family ∈ plan.families ↔ ∃ f ∈ routes.families, compilerRouteFamily f = family := by
  rw [h.plan_families, List.mem_map]

theorem routeFamilyForActor_eq_some {actor : DeclId} {family : RouteFamily} :
    routeFamilyForActor plan actor = some family ↔
      family ∈ plan.families ∧ actor ∈ family.actors := by
  unfold routeFamilyForActor
  constructor
  · intro hfind
    have hactor := List.find?_some (p := fun f : RouteFamily => decide (actor ∈ f.actors)) hfind
    exact ⟨List.mem_of_find?_eq_some hfind, of_decide_eq_true hactor⟩
  · intro ⟨hmem, hactor⟩
    cases hfind : plan.families.find? fun f => decide (actor ∈ f.actors) with
    | none => exact absurd (decide_eq_true hactor) (List.find?_eq_none.mp hfind family hmem)
    | some other =>
      have hother := List.find?_some (p := fun f : RouteFamily => decide (actor ∈ f.actors)) hfind
      obtain ⟨f, hf, rfl⟩ := h.mem_plan_families.mp hmem
      obtain ⟨f', hf', rfl⟩ := h.mem_plan_families.mp (List.mem_of_find?_eq_some hfind)
      rw [h.family_unique hf' hf (of_decide_eq_true hother) hactor]

theorem routeFamily_eq_some (hs : validateGeneratedActorSuffixes app = .ok ()) {id : String}
    {family : RouteFamily} :
    routeFamily plan id = some family ↔ family ∈ plan.families ∧ family.id = id := by
  unfold routeFamily
  constructor
  · intro hfind
    have hid := List.find?_some (p := fun f : RouteFamily => decide (f.id = id)) hfind
    exact ⟨List.mem_of_find?_eq_some hfind, of_decide_eq_true hid⟩
  · intro ⟨hmem, hid⟩
    cases hfind : plan.families.find? fun f => decide (f.id = id) with
    | none => exact absurd (decide_eq_true hid) (List.find?_eq_none.mp hfind family hmem)
    | some other =>
      have hother := List.find?_some (p := fun f : RouteFamily => decide (f.id = id)) hfind
      obtain ⟨f, hf, rfl⟩ := h.mem_plan_families.mp hmem
      obtain ⟨f', hf', rfl⟩ := h.mem_plan_families.mp (List.mem_of_find?_eq_some hfind)
      rw [h.family_inj hs hf' hf ((of_decide_eq_true hother).trans hid.symm)]

theorem id_inj (hs : validateGeneratedActorSuffixes app = .ok ()) {family family' : RouteFamily}
    (hf : family ∈ plan.families) (hf' : family' ∈ plan.families)
    (hid : family.id = family'.id) : family = family' := by
  have := (h.routeFamily_eq_some hs).mpr ⟨hf, hid⟩
  rw [(h.routeFamily_eq_some hs).mpr ⟨hf', rfl⟩, Option.some_inj] at this
  exact this.symm

end Inferred

/-! ## generated fields -/

/-- the leaf is not an entry of the actor's own route table -/
def OutsideTable (plan : CompilerRoutePlan) (actor leaf : DeclId) : Prop :=
  ∀ own, routeFamilyForActor plan actor = some own → leaf ∉ own.tableActors

/-- the generated fields that the nodes of a cut give an actor -/
inductive NodeField (app : App) (plan : CompilerRoutePlan) (actor : DeclId)
    (nodes : List (CommitmentNode DeclId)) : GeneratedField → Prop
  | template {leaf field} : .leaf leaf ∈ nodes → OutsideTable plan actor leaf →
      templateField app leaf = .ok field → NodeField app plan actor nodes field
  | digest {family} : family ∈ plan.families → family.branch ∈ nodes →
      NodeField app plan actor nodes (routeDigestField app family)
  | table {family} : routeFamilyForActor plan actor = some family →
      NodeField app plan actor nodes (routeTableField app family)

/-- a generated field by its kind -/
theorem NodeField.kinds {app : App} {plan : CompilerRoutePlan} {actor : DeclId}
    {nodes : List (CommitmentNode DeclId)} {field : GeneratedField}
    (h : NodeField app plan actor nodes field) :
    (∃ leaf, .leaf leaf ∈ nodes ∧ OutsideTable plan actor leaf ∧
        field = ⟨.template leaf, hiddenTemplateName leaf, ⟨"byte", 32⟩⟩) ∨
      (∃ family ∈ plan.families, family.branch ∈ nodes ∧ field = routeDigestField app family) ∨
      ∃ family, routeFamilyForActor plan actor = some family ∧
        field = routeTableField app family := by
  cases h with
  | @template leaf _ hleaf hout hfield =>
    unfold templateField at hfield
    cases hmodel : app.actor? leaf with
    | none => rw [hmodel] at hfield; cases hfield
    | some model =>
      rw [hmodel] at hfield
      dsimp only at hfield
      rw [(App.actor?_eq_some.mp hmodel).2] at hfield
      exact Or.inl ⟨leaf, hleaf, hout, (Except.ok.inj hfield).symm⟩
  | digest hmem hbranch => exact Or.inr (Or.inl ⟨_, hmem, hbranch, rfl⟩)
  | table hown => exact Or.inr (Or.inr ⟨_, hown, rfl⟩)

namespace Inferred
variable {app : App} {plan : CompilerRoutePlan} {inputs : RouteInputs}
  {routes : RoutePlan DeclId DeclId} {constraints : CommitmentConstraints DeclId}
  (h : Inferred app plan inputs routes constraints)
include h

theorem mem_digestFields (hs : validateGeneratedActorSuffixes app = .ok ()) {ids : List String}
    {fields : List GeneratedField} (hfields : ids.mapM (routeCutDigestField app plan) = .ok fields)
    {field : GeneratedField} : field ∈ fields ↔
      ∃ family ∈ plan.families, family.id ∈ ids ∧ routeDigestField app family = field := by
  rw [mem_iff_of_mapM_ok hfields]
  unfold routeCutDigestField
  constructor
  · intro ⟨id, hid, hfield⟩
    cases hfamily : routeFamily plan id with
    | none => rw [hfamily] at hfield; cases hfield
    | some family =>
      rw [hfamily] at hfield
      obtain ⟨hmem, rfl⟩ := (h.routeFamily_eq_some hs).mp hfamily
      exact ⟨family, hmem, hid, Except.ok.inj hfield⟩
  · intro ⟨family, hmem, hid, hfield⟩
    refine ⟨family.id, hid, ?_⟩
    rw [(h.routeFamily_eq_some hs).mpr ⟨hmem, rfl⟩, ← hfield]

theorem mem_leafFamilies_iff (hs : validateGeneratedActorSuffixes app = .ok ())
    {nodes : List (CommitmentNode DeclId)} {leaves : List RouteRootLeaf}
    (hc : CarriedLeaves routes nodes leaves) {family : RouteFamily}
    (hmem : family ∈ plan.families) : family.id ∈ leafFamilies leaves ↔ family.branch ∈ nodes := by
  obtain ⟨f, hf, rfl⟩ := h.mem_plan_families.mp hmem
  rw [hc.families]
  constructor
  · intro ⟨f', hf', hid, hbranch⟩
    rw [h.family_inj hs hf hf' hid]
    exact hbranch
  · exact fun hbranch => ⟨f, hf, rfl, hbranch⟩

/-- the members of the own family are carried, and its branch is not -/
theorem own_nodes {actor : DeclId} {nodes : List (CommitmentNode DeclId)}
    (hn : PlannedNodes inputs.graph constraints routes.commitments actor nodes)
    {own : RouteFamily} (hown : routeFamilyForActor plan actor = some own) :
    (∀ x ∈ own.actors, .leaf x ∈ nodes) ∧ own.branch ∉ nodes := by
  obtain ⟨hmem, hactor⟩ := h.routeFamilyForActor_eq_some.mp hown
  obtain ⟨f, hf, rfl⟩ := h.mem_plan_families.mp hmem
  obtain ⟨cohort, hcohort, hin⟩ := h.family_cohort hf
  have hcarried : ∀ x ∈ f.members, .leaf x ∈ nodes := fun x hx =>
    (hn.members cohort hcohort (hin actor hactor) x (hin x hx)).2
  refine ⟨hcarried, fun hbranch => ?_⟩
  obtain ⟨hne, _, _⟩ := (commitmentPlan_families h.planned.commitments).2.1 _ (h.table_mem hf)
  obtain ⟨x, hx⟩ := List.exists_mem_of_ne_nil _ hne
  exact hn.unmixed f.table (h.table_mem hf) hbranch x hx (hcarried x (h.table_subset hf x hx))

/-- **The generated fields of an actor, by the nodes of its cut.** -/
theorem mem_generatedFields (hs : validateGeneratedActorSuffixes app = .ok ()) {actor : DeclId}
    {nodes : List (CommitmentNode DeclId)}
    (hn : PlannedNodes inputs.graph constraints routes.commitments actor nodes)
    {fields : List GeneratedField} (hfields : generatedFieldsForActor app plan actor = .ok fields)
    {field : GeneratedField} : field ∈ fields ↔ NodeField app plan actor nodes field := by
  obtain ⟨leaves, hroute, hmap⟩ := h.leaves hn.get
  have hc := h.carriedLeaves hs hn.nodup hmap
  have hfamilies : ∀ {family}, family ∈ plan.families →
      (family.id ∈ leafFamilies leaves ↔ family.branch ∈ nodes) :=
    fun hmem => h.mem_leafFamilies_iff hs hc hmem
  unfold generatedFieldsForActor at hfields
  rw [hroute] at hfields
  dsimp only at hfields
  cases hown : routeFamilyForActor plan actor with
  | none =>
    rw [hown] at hfields
    obtain ⟨templates, htemplates, hfields⟩ := bind_eq_ok.mp hfields
    obtain ⟨digests, hdigests, hfields⟩ := bind_eq_ok.mp hfields
    rw [← pure_eq_ok.mp hfields, List.mem_append, mem_iff_of_mapM_ok htemplates,
      h.mem_digestFields hs hdigests]
    have houtside : ∀ leaf, OutsideTable plan actor leaf := fun leaf own hsome => by
      rw [hown] at hsome
      cases hsome
    constructor
    · rintro (⟨leaf, hleaf, hfield⟩ | ⟨family, hmem, hid, rfl⟩)
      · exact .template ((hc.actors leaf).mp hleaf) (houtside leaf) hfield
      · exact .digest hmem ((hfamilies hmem).mp hid)
    · intro hfield
      cases hfield with
      | template hleaf _ hfield => exact Or.inl ⟨_, (hc.actors _).mpr hleaf, hfield⟩
      | digest hmem hbranch => exact Or.inr ⟨_, hmem, (hfamilies hmem).mpr hbranch, rfl⟩
      | table hsome => rw [hown] at hsome; cases hsome
  | some own =>
    rw [hown] at hfields
    obtain ⟨templates, htemplates, hfields⟩ := bind_eq_ok.mp hfields
    obtain ⟨digests, hdigests, hfields⟩ := bind_eq_ok.mp hfields
    obtain ⟨gates, hgates, hfields⟩ := bind_eq_ok.mp hfields
    obtain ⟨hcarried, hclosed⟩ := h.own_nodes hn hown
    obtain ⟨hmem, _⟩ := h.routeFamilyForActor_eq_some.mp hown
    have htable : ∀ x ∈ own.tableActors, x ∈ own.actors := by
      obtain ⟨f, hf, rfl⟩ := h.mem_plan_families.mp hmem
      exact h.table_subset hf
    rw [← pure_eq_ok.mp hfields, List.mem_append, List.mem_append, List.mem_append,
      mem_iff_of_mapM_ok htemplates, mem_iff_of_mapM_ok hgates, h.mem_digestFields hs hdigests,
      List.mem_singleton]
    simp only [List.mem_filter, decide_eq_true_eq]
    have houtside : ∀ leaf, OutsideTable plan actor leaf ↔ leaf ∉ own.tableActors := fun leaf => by
      unfold OutsideTable
      rw [hown]
      exact ⟨fun hleaf => hleaf own rfl, fun hleaf _ heq => Option.some_inj.mp heq ▸ hleaf⟩
    constructor
    · rintro (((⟨leaf, ⟨hleaf, hout⟩, hfield⟩ | ⟨family, hfam, ⟨hid, _⟩, rfl⟩) |
        ⟨leaf, ⟨hleaf, hout⟩, hfield⟩) | rfl)
      · exact .template ((hc.actors leaf).mp hleaf)
          ((houtside leaf).mpr fun hin => hout (htable leaf hin)) hfield
      · exact .digest hfam ((hfamilies hfam).mp hid)
      · exact .template (hcarried leaf hleaf) ((houtside leaf).mpr hout) hfield
      · exact .table hown
    · intro hfield
      cases hfield with
      | @template leaf _ hleaf hout hfield =>
        have hout := (houtside leaf).mp hout
        by_cases hin : leaf ∈ own.actors
        · exact Or.inl (Or.inr ⟨leaf, ⟨hin, hout⟩, hfield⟩)
        · exact Or.inl (Or.inl (Or.inl ⟨leaf, ⟨(hc.actors leaf).mpr hleaf, hin⟩, hfield⟩))
      | @digest family hfam hbranch =>
        refine Or.inl (Or.inl (Or.inr ⟨family, hfam, ⟨(hfamilies hfam).mpr hbranch, ?_⟩, rfl⟩))
        intro hid
        rw [h.id_inj hs hfam hmem hid] at hbranch
        exact hclosed hbranch
      | table hsome =>
        rw [hown, Option.some_inj] at hsome
        exact Or.inr (hsome ▸ rfl)

end Inferred

/-! ## transitions -/

/-- what a route transition does to a cut -/
structure Transforms (plan : CompilerRoutePlan) (source target : List (CommitmentNode DeclId))
    (transition : CompilerRouteTransition) : Prop where
  leaf : ∀ x, .leaf x ∈ target → .leaf x ∈ source ∨
    ∃ family ∈ plan.families, x ∈ family.tableActors ∧ family.id ∈ transition.familiesToOpen
  opened : ∀ id ∈ transition.familiesToOpen,
    ∃ family ∈ plan.families, family.id = id ∧ family.branch ∈ source
  branch : ∀ family ∈ plan.families, family.branch ∈ target →
    family.id ∈ transition.familiesToPack ∨ family.branch ∈ source
  packed : ∀ id ∈ transition.familiesToPack, ∃ family ∈ plan.families, family.id = id ∧
    family.branch ∈ target ∧ family.branch ∉ source ∧ ∀ x ∈ family.tableActors, .leaf x ∈ source

/-- what the cuts of an app's actors and the transitions between them are -/
structure Carriage (app : App) (plan : CompilerRoutePlan)
    (nodesOf : DeclId → List (CommitmentNode DeclId)) : Prop where
  generated : ∀ actor ∈ app.actors, ∃ fields,
    generatedFieldsForActor app plan actor.name = .ok fields ∧ (fields.map (·.id)).Nodup ∧
      ∀ field, field ∈ fields ↔ NodeField app plan actor.name (nodesOf actor.name) field
  selected : ∀ actor ∈ app.actors, ∀ x, .leaf x ∈ nodesOf actor.name → (app.actor? x).isSome = true
  own : ∀ actor ∈ app.actors, ∀ own, routeFamilyForActor plan actor.name = some own →
    (∀ x ∈ own.actors, .leaf x ∈ nodesOf actor.name) ∧ own.branch ∉ nodesOf actor.name
  unmixed : ∀ actor ∈ app.actors, ∀ family ∈ plan.families, family.branch ∈ nodesOf actor.name →
    ∀ x ∈ family.tableActors, .leaf x ∉ nodesOf actor.name
  consumed : ∀ actor ∈ app.actors, ∀ entry ∈ actor.entries, ∀ group ∈ entry.groups,
    ∀ target ∈ selectedTargets app group.inputs,
      ¬ app.isSingletonActorSelfTarget actor.name target = true → .leaf target ∈ nodesOf actor.name
  emitted : ∀ actor ∈ app.actors, ∀ entry ∈ actor.entries, ∀ group ∈ entry.groups,
    ∀ target ∈ selectedTargets app group.outputs, actor.name ≠ target →
      .leaf target ∈ nodesOf actor.name ∨
        ∃ family ∈ plan.families, target ∈ family.tableActors ∧ family.branch ∈ nodesOf actor.name
  transition : ∀ actor ∈ app.actors, ∀ entry ∈ actor.entries, ∀ group ∈ entry.groups,
    ∀ target ∈ selectedTargets app group.outputs, ∃ transition,
      routeTransition plan actor.name target = some transition ∧
        Transforms plan (nodesOf actor.name) (nodesOf target) transition

/-- what holds of the families of a plan -/
structure Families (app : App) (plan : CompilerRoutePlan) : Prop where
  forActor : ∀ actor family, routeFamilyForActor plan actor = some family ↔
    family ∈ plan.families ∧ actor ∈ family.actors
  byId : ∀ id family, routeFamily plan id = some family ↔ family ∈ plan.families ∧ family.id = id
  table : ∀ family ∈ plan.families, ∀ x ∈ family.tableActors, x ∈ family.actors
  nodup : ∀ family ∈ plan.families, family.tableActors.Nodup
  members : ∀ family ∈ plan.families, ∀ x ∈ family.actors,
    ∃ actor ∈ app.actors, actor.name = x ∧ actor.state = family.state

namespace Inferred
variable {app : App} {plan : CompilerRoutePlan} {inputs : RouteInputs}
  {routes : RoutePlan DeclId DeclId} {constraints : CommitmentConstraints DeclId}
  (h : Inferred app plan inputs routes constraints)
include h

theorem families (hs : validateGeneratedActorSuffixes app = .ok ()) : Families app plan where
  forActor := fun _ _ => h.routeFamilyForActor_eq_some
  byId := fun _ _ => h.routeFamily_eq_some hs
  table := fun family hmem => by
    obtain ⟨f, hf, rfl⟩ := h.mem_plan_families.mp hmem
    exact h.table_subset hf
  nodup := fun family hmem => by
    obtain ⟨f, hf, rfl⟩ := h.mem_plan_families.mp hmem
    exact h.table_nodup hf
  members := fun family hmem x hx => by
    obtain ⟨f, hf, rfl⟩ := h.mem_plan_families.mp hmem
    exact h.member_state hf hx

theorem family_of_table {table : List DeclId} (hmem : table ∈ constraints.families) :
    ∃ f ∈ routes.families, f.table = table := by
  rw [h.planned.families] at hmem
  exact List.mem_map.mp hmem

theorem mem_operations {nodes : List (CommitmentNode DeclId)} {ids : List String}
    (hids : nodes.mapM (compilerRouteFamilyId routes) = .ok ids) :
    (∀ id ∈ ids, ∃ f ∈ routes.families, (compilerRouteFamily f).id = id ∧ familyBranch f ∈ nodes) ∧
      ∀ f ∈ routes.families, familyBranch f ∈ nodes → (compilerRouteFamily f).id ∈ ids := by
  refine ⟨fun id hid => ?_, fun f hf hbranch => ?_⟩
  · obtain ⟨n, hn, hok⟩ := mem_of_mapM_ok hids hid
    obtain ⟨f, hf, rfl, rfl⟩ := compilerRouteFamilyId_ok hok
    exact ⟨f, hf, rfl, hn⟩
  · obtain ⟨id, hid, hok⟩ := mapM_ok_of_mem hids hbranch
    obtain ⟨f', hf', heq, rfl⟩ := compilerRouteFamilyId_ok hok
    rwa [h.familyBranch_inj hf hf' heq]

theorem transforms {source target : DeclId} (hsource : source ∈ inputs.graph.actors)
    (htarget : target ∈ inputs.graph.actors) {transition : CompilerRouteTransition}
    (htr : compilerRouteTransition routes source target = .ok transition) :
    ∃ σ τ, routes.commitments.cutNodes source = some σ ∧
      routes.commitments.cutNodes target = some τ ∧ Transforms plan σ τ transition := by
  unfold compilerRouteTransition at htr
  cases hcut : routes.commitments.cutTransition source target with
  | error e => rw [hcut] at htr; cases htr
  | ok tr =>
    rw [hcut] at htr
    obtain ⟨opened, hopened, htr⟩ := bind_eq_ok.mp htr
    obtain ⟨packed, hpacked, htr⟩ := bind_eq_ok.mp htr
    rw [← pure_eq_ok.mp htr]
    obtain ⟨σ, τ, hσ, hτ, hnodes⟩ :=
      commitmentPlan_transition h.planned.commitments hsource htarget hcut
    have hmap : ∀ {refs : List routes.commitments.forest.NodeRef} {ids : List String},
        (refs.mapM fun branch => compilerRouteFamilyId routes branch.get) = .ok ids →
        (refs.map CommitmentForest.NodeRef.get).mapM (compilerRouteFamilyId routes) = .ok ids := by
      intro refs ids hrefs
      rw [List.mapM_map]
      exact hrefs
    obtain ⟨hopen, hopen'⟩ := h.mem_operations (hmap hopened)
    obtain ⟨hpack, hpack'⟩ := h.mem_operations (hmap hpacked)
    refine ⟨σ, τ, hσ, hτ, ⟨fun x hx => ?_, fun id hid => ?_, fun family hmem hbranch => ?_,
      fun id hid => ?_⟩⟩
    · obtain hleaf | ⟨table, hmem, hin, hbranch⟩ := hnodes.leaf x hx
      · exact Or.inl hleaf
      · obtain ⟨f, hf, rfl⟩ := h.family_of_table hmem
        exact Or.inr ⟨_, h.mem_plan_families.mpr ⟨f, hf, rfl⟩, hin, hopen' f hf hbranch⟩
    · obtain ⟨f, hf, hfid, hbranch⟩ := hopen id hid
      exact ⟨_, h.mem_plan_families.mpr ⟨f, hf, rfl⟩, hfid, (hnodes.opened _ hbranch).1⟩
    · obtain ⟨f, hf, rfl⟩ := h.mem_plan_families.mp hmem
      obtain hp | hsrc := hnodes.branch f.table (h.table_mem hf) hbranch
      · exact Or.inl (hpack' f hf hp)
      · exact Or.inr hsrc
    · obtain ⟨f, hf, hfid, hbranch⟩ := hpack id hid
      obtain ⟨hin, hnot, table, htable, heq, hleaves⟩ := hnodes.packed _ hbranch
      obtain ⟨f', hf', rfl⟩ := h.family_of_table htable
      rw [← h.familyBranch_inj hf hf' heq] at hleaves
      exact ⟨_, h.mem_plan_families.mpr ⟨f, hf, rfl⟩, hfid, hin, hnot, hleaves⟩

theorem routeTransition_ok {source target : DeclId}
    (hpair : toLex (source, target) ∈ inputs.transitionPairs) :
    ∃ transition, routeTransition plan source target = some transition ∧
      compilerRouteTransition routes source target = .ok transition := by
  have hl := h.lowered
  unfold compilerRoutePlan at hl
  obtain ⟨_, _, hl⟩ := bind_eq_ok.mp hl
  obtain ⟨transitions, htransitions, hl⟩ := bind_eq_ok.mp hl
  rw [← pure_eq_ok.mp hl]
  obtain ⟨entry, hentry, hok⟩ := mapM_ok_of_mem htransitions hpair
  obtain ⟨transition, htr, hok⟩ := bind_eq_ok.mp hok
  replace htr : compilerRouteTransition routes source target = .ok transition := htr
  rw [← pure_eq_ok.mp hok] at hentry
  refine ⟨transition, ?_, htr⟩
  unfold routeTransition
  cases hfind : transitions.find? fun entry => decide (entry.1 = (source, target)) with
  | none =>
    exact absurd (decide_eq_true rfl) (List.find?_eq_none.mp hfind _ hentry)
  | some found =>
    have hkey := of_decide_eq_true (List.find?_some
      (p := fun entry : (DeclId × DeclId) × CompilerRouteTransition =>
        decide (entry.1 = (source, target))) hfind)
    obtain ⟨pair, _, hok'⟩ := mem_of_mapM_ok htransitions (List.mem_of_find?_eq_some hfind)
    obtain ⟨transition', htr', hok'⟩ := bind_eq_ok.mp hok'
    have hok' := pure_eq_ok.mp hok'
    rw [← hok'] at hkey
    have hpair' : ofLex pair = (source, target) := hkey
    rw [hpair'] at htr'
    replace htr' : compilerRouteTransition routes source target = .ok transition' := htr'
    rw [htr] at htr'
    rw [← hok', Except.ok.inj htr']
    rfl

/-- a listed transition is the planned one -/
theorem routeTransition_some {source target : DeclId} {transition : CompilerRouteTransition}
    (hsome : routeTransition plan source target = some transition) :
    compilerRouteTransition routes source target = .ok transition := by
  have hl := h.lowered
  unfold compilerRoutePlan at hl
  obtain ⟨_, _, hl⟩ := bind_eq_ok.mp hl
  obtain ⟨transitions, htransitions, hl⟩ := bind_eq_ok.mp hl
  rw [← pure_eq_ok.mp hl] at hsome
  obtain ⟨found, hfind, rfl⟩ := Option.map_eq_some_iff.mp hsome
  have hkey := of_decide_eq_true (List.find?_some
    (p := fun entry : (DeclId × DeclId) × CompilerRouteTransition =>
      decide (entry.1 = (source, target))) hfind)
  obtain ⟨pair, _, hok⟩ := mem_of_mapM_ok htransitions (List.mem_of_find?_eq_some hfind)
  obtain ⟨transition, htr, hok⟩ := bind_eq_ok.mp hok
  replace htr : compilerRouteTransition routes (ofLex pair).1 (ofLex pair).2 = .ok transition := htr
  have hok := pure_eq_ok.mp hok
  rw [← hok] at hkey ⊢
  replace hkey : ofLex pair = (source, target) := hkey
  rwa [hkey] at htr

/-- no two fields of an actor have one identity: they stand for different nodes -/
theorem generatedIds_nodup (hs : validateGeneratedActorSuffixes app = .ok ()) {actor : ActorModel}
    (ha : actor ∈ app.actors) {fields : List GeneratedField}
    (hfields : generatedFieldsForActor app plan actor.name = .ok fields) :
    (fields.map (·.id)).Nodup := by
  obtain ⟨nodes, hn⟩ := commitmentPlan_nodes h.planned.commitments actor.name (h.actors ha)
  obtain ⟨fields', nodes', hfields', _, hnodup, hperm⟩ := h.fields_nodes hs ha
  rw [hfields] at hfields'
  rw [← Except.ok.inj hfields'] at hperm
  have hnonempty : ∀ field ∈ fields, field.nodes routes ≠ [] := by
    intro field hfield
    have hnode := (h.mem_generatedFields hs hn hfields).mp hfield
    cases hnode with
    | template _ _ hok =>
      unfold templateField at hok
      split at hok
      · cases hok
      · rw [← Except.ok.inj hok]
        exact List.cons_ne_nil _ _
    | digest hmem _ =>
      obtain ⟨f, hf, rfl⟩ := h.mem_plan_families.mp hmem
      show branchesOf routes (routeFamilyId f.domain f.rep) ≠ []
      rw [h.branchesOf_family hs hf]
      exact List.cons_ne_nil _ _
    | table hown =>
      obtain ⟨f, hf, rfl⟩ := h.mem_plan_families.mp (h.routeFamilyForActor_eq_some.mp hown).1
      obtain ⟨hne, _, _⟩ := (commitmentPlan_families h.planned.commitments).2.1 _ (h.table_mem hf)
      show f.table.map CommitmentNode.leaf ≠ []
      exact fun hnil => hne (List.map_eq_nil_iff.mp hnil)
  have hflat := (hperm.nodup_iff.mpr hnodup)
  clear hperm hfields hfields'
  induction fields with
  | nil => exact List.nodup_nil
  | cons field fields ih =>
    rw [List.flatMap_cons] at hflat
    obtain ⟨_, hrest, hdisjoint⟩ := List.nodup_append.mp hflat
    rw [List.map_cons, List.nodup_cons]
    refine ⟨fun hmem => ?_, ih (fun f hf => hnonempty f (List.mem_cons_of_mem _ hf)) hrest⟩
    obtain ⟨other, hother, hid⟩ := List.mem_map.mp hmem
    obtain ⟨n, hn⟩ := List.exists_mem_of_ne_nil _ (hnonempty field List.mem_cons_self)
    have hn' : n ∈ other.nodes routes := by
      unfold GeneratedField.nodes
      rw [hid]
      exact hn
    exact hdisjoint n hn n (List.mem_flatMap.mpr ⟨other, hother, hn'⟩) rfl

theorem carriage (hs : validateGeneratedActorSuffixes app = .ok ()) :
    Carriage app plan fun actor => (routes.commitments.cutNodes actor).getD [] := by
  have hnodes : ∀ actor ∈ app.actors, ∃ nodes,
      PlannedNodes inputs.graph constraints routes.commitments actor.name nodes ∧
        (routes.commitments.cutNodes actor.name).getD [] = nodes := by
    intro actor ha
    obtain ⟨nodes, hn⟩ := commitmentPlan_nodes h.planned.commitments actor.name (h.actors ha)
    exact ⟨nodes, hn, by rw [hn.get]; rfl⟩
  refine ⟨fun actor ha => ?_, fun actor ha x hx => ?_, fun actor ha own hown => ?_,
    fun actor ha family hmem hbranch x hx => ?_, fun actor ha entry hentry group hgroup target ht => ?_,
    fun actor ha entry hentry group hgroup target ht hne => ?_,
    fun actor ha entry hentry group hgroup target ht => ?_⟩
  all_goals
    obtain ⟨nodes, hn, heq⟩ := hnodes actor ha
  · obtain ⟨fields, _, hfields, _⟩ := h.fields_nodes hs ha
    rw [heq]
    exact ⟨fields, hfields, h.generatedIds_nodup hs ha hfields,
      fun field => h.mem_generatedFields hs hn hfields⟩
  · rw [heq] at hx
    exact App.actor?_isSome.mpr (h.leaf_actor hn hx)
  · rw [heq]
    exact h.own_nodes hn hown
  · rw [heq] at hbranch ⊢
    obtain ⟨f, hf, rfl⟩ := h.mem_plan_families.mp hmem
    exact hn.unmixed f.table (h.table_mem hf) hbranch x hx
  · intro hself
    rw [heq]
    exact hn.consumes target
      ((h.collected.entries actor ha entry hentry).consumed group hgroup target ht hself)
  · rw [heq]
    obtain hleaf | ⟨table, htable, hin, hbranch⟩ := hn.emits target
      (((h.collected.entries actor ha entry hentry).emitted group hgroup target ht).2 hne)
    · exact Or.inl hleaf
    · obtain ⟨f, hf, rfl⟩ := h.family_of_table htable
      exact Or.inr ⟨_, h.mem_plan_families.mpr ⟨f, hf, rfl⟩, hin, hbranch⟩
  · obtain ⟨transition, hfind, hok⟩ := h.routeTransition_ok
      ((h.collected.entries actor ha entry hentry).emitted group hgroup target ht).1
    obtain ⟨targetModel, htm, rfl⟩ := List.mem_map.mp (mem_selectedTargets.mp ht).1
    obtain ⟨σ, τ, hσ, hτ, htransforms⟩ := h.transforms (h.actors ha) (h.actors htm) hok
    rw [hσ, hτ]
    exact ⟨transition, hfind, htransforms⟩

end Inferred

/-- **The cuts of a compiled app.** -/
theorem CompiledApp.carriage (app : CompiledApp) :
    Families app.toApp app.plan ∧ ∃ nodesOf, Carriage app.toApp app.plan nodesOf := by
  obtain ⟨inputs, routes, constraints, h⟩ := inferDirectRoutes_inferred app.planned
  exact ⟨h.families app.suffixes, _, h.carriage app.suffixes⟩

/-- the cuts of a compiled app, with the transitions of all listed pairs -/
theorem CompiledApp.carriage_transforms (app : CompiledApp) :
    ∃ nodesOf, Carriage app.toApp app.plan nodesOf ∧ ∀ source ∈ app.actors.map (·.name),
      ∀ target ∈ app.actors.map (·.name), ∀ transition,
        routeTransition app.plan source target = some transition →
          Transforms app.plan (nodesOf source) (nodesOf target) transition := by
  obtain ⟨inputs, routes, constraints, h⟩ := inferDirectRoutes_inferred app.planned
  refine ⟨_, h.carriage app.suffixes, fun source hsource target htarget transition hsome => ?_⟩
  obtain ⟨actor, ha, rfl⟩ := List.mem_map.mp hsource
  obtain ⟨model, hm, rfl⟩ := List.mem_map.mp htarget
  obtain ⟨σ, τ, hσ, hτ, htransforms⟩ :=
    h.transforms (h.actors ha) (h.actors hm) (h.routeTransition_some hsome)
  rw [hσ, hτ]
  exact htransforms

/-- the variants of a selector are selected and have the generated fields of its source -/
theorem CompiledApp.variants (app : CompiledApp) {actor : ActorModel} (ha : actor ∈ app.actors)
    {entry : EntryModel} (hentry : entry ∈ actor.entries) {selector : TemplateSelector}
    (hselector : selector ∈ entry.templateSelectors) {v : DeclId}
    (hv : .inApp v ∈ selector.targets) : v ∈ app.actors.map (·.name) ∧
      generatedFieldsForActor app.toApp app.plan v =
        generatedFieldsForActor app.toApp app.plan actor.name := by
  obtain ⟨inputs, routes, constraints, h⟩ := inferDirectRoutes_inferred app.planned
  exact ⟨h.variant_selected ha hentry hselector hv, h.fields_variant ha hentry hselector hv⟩

theorem CompiledApp.tableName_inj (app : CompiledApp) {family family' : RouteFamily}
    (hf : family ∈ app.plan.families) (hf' : family' ∈ app.plan.families)
    (hname : hiddenRouteFamilyTableName family.id = hiddenRouteFamilyTableName family'.id) :
    family = family' := by
  obtain ⟨inputs, routes, constraints, h⟩ := inferDirectRoutes_inferred app.planned
  obtain ⟨f, hmem, rfl⟩ := h.mem_plan_families.mp hf
  obtain ⟨f', hmem', rfl⟩ := h.mem_plan_families.mp hf'
  rw [h.tableName_inj app.suffixes hmem hmem' hname]

theorem CompiledApp.templateName_inj (app : CompiledApp) {a b : DeclId}
    (ha : a ∈ app.actors.map (·.name)) (hb : b ∈ app.actors.map (·.name))
    (hname : hiddenTemplateName a = hiddenTemplateName b) : a = b := by
  have hidentifier : ∀ {x}, x ∈ app.actors.map (·.name) → isIdentifier x = true := by
    intro x hx
    obtain ⟨actor, hmem, rfl⟩ := List.mem_map.mp hx
    exact app.identifiers actor hmem
  exact toSnake_inj_of_validate app.suffixes ha hb
    (hiddenTemplateName_inj (hidentifier ha) (hidentifier hb) hname)

end Argent.Model
