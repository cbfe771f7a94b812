import Argent.Codegen.Recipes
import Argent.Model.Carried

/-!
# Recipe ids of an app

The ids of an app tell its hidden parameters apart, unless they leave out what differs.

* `RoleOf`                  the roles of a planned entry, by their witnesses;
* `key_named`               the segments of an id contain no separator;
* `hiddenParam_agree`       **parameters of one key are one parameter when the kinds are separated**;
* `recipes_faithful_iff`      **recipes are faithful exactly when the kinds are separated**;
* `recipes_handles`         two entries that observe through one root under two handles.
-/

set_option linter.unusedSectionVars false

namespace Argent.Codegen
open Argent.Model Argent.Artifacts Argent.Fallible

/-! ## planned entries -/

/-- what an entry of an accepted app was planned from -/
structure Planned (app : WitnessApp) (planned : PlannedEntry) : Prop where
  actor_mem : planned.actor ∈ app.actors
  entry_mem : planned.entry ∈ planned.actor.entries
  witnesses : entryWitnesses (app.bindings planned.actor.name planned.entry.name) planned.entry
    app.toApp app.plan planned.actor (app.digests planned.actor.state) = .ok planned.witnesses

/-- what the witnesses of an entry are -/
structure Witnessed (bindings : String → ClauseBindings) (entry : EntryModel) (app : App)
    (plan : CompilerRoutePlan) (actor : ActorModel) (digests : List DigestExpansion)
    (witnesses : EntryWitnesses) : Prop where
  base : witnessPlan app plan actor entry = .ok witnesses.toWitnessPlan
  selectors : witnesses.selectors = entry.templateSelectors
  observed : ∀ spec ∈ witnesses.observedActors,
    spec ∈ entryObserved bindings entry ∧ spec.templateSource ≠ .actorTypeValue
  spawned : entrySpawnOutputs bindings entry = .ok witnesses.spawnOutputs
  actorTypes : ∃ observed, witnesses.actorTypeSourceTemplates =
    Codegen.actorTypeSourceTemplates observed witnesses.spawnOutputs
  expansions : witnesses.stateExpansions = digests.map fun digest =>
    ⟨actor.state, digest.field.1, digest.memoryState.1, digest.packedLen⟩
  outputFields : witnesses.observedOutputFields = entryOutputFields bindings entry

theorem entryWitnesses_ok {bindings : String → ClauseBindings} {entry : EntryModel} {app : App}
    {plan : CompilerRoutePlan} {actor : ActorModel} {digests : List DigestExpansion}
    {witnesses : EntryWitnesses}
    (h : entryWitnesses bindings entry app plan actor digests = .ok witnesses) :
    Witnessed bindings entry app plan actor digests witnesses := by
  obtain ⟨base, hbase, h⟩ := bind_eq_ok.mp h
  obtain ⟨spawned, hspawned, h⟩ := bind_eq_ok.mp h
  obtain rfl := pure_eq_ok.mp h
  refine ⟨hbase, rfl, fun spec hspec => ?_, hspawned, ⟨_, rfl⟩, rfl, rfl⟩
  obtain ⟨hmem, hsource⟩ := List.mem_filter.mp hspec
  refine ⟨hmem, fun hvalue => ?_⟩
  obtain hdynamic | hunbound := of_decide_eq_true hsource
  · rw [hvalue] at hdynamic
    cases hdynamic
  · rw [hvalue] at hunbound
    cases hunbound

section
variable {app : WitnessApp} {entries : List PlannedEntry} (h : app.plannedEntries = .ok entries)
include h

theorem planned_of_mem {planned : PlannedEntry} (hmem : planned ∈ entries) :
    Planned app planned := by
  obtain ⟨site, hsite, hplan⟩ := mem_of_mapM_ok h hmem
  obtain ⟨actor, hactor, hsite⟩ := List.mem_flatMap.mp hsite
  obtain ⟨entry, hentry, rfl⟩ := List.mem_map.mp hsite
  obtain ⟨witnesses, hwitnesses, hplan⟩ := bind_eq_ok.mp hplan
  obtain rfl := pure_eq_ok.mp hplan
  exact ⟨hactor, hentry, hwitnesses⟩

theorem planned_unique {p q : PlannedEntry} (hp : p ∈ entries) (hq : q ∈ entries)
    (hactor : p.actor.name = q.actor.name) (hentry : p.entry.name = q.entry.name) : p = q := by
  obtain ⟨hpa, hpe, hpw⟩ := planned_of_mem h hp
  obtain ⟨hqa, hqe, hqw⟩ := planned_of_mem h hq
  obtain ⟨pactor, pentry, pwitnesses⟩ := p
  obtain ⟨qactor, qentry, qwitnesses⟩ := q
  obtain rfl : pactor = qactor := List.inj_on_of_nodup_map app.distinct hpa hqa hactor
  obtain rfl : pentry = qentry :=
    List.inj_on_of_nodup_map (app.entries_nodup _ hpa) hpe hqe hentry
  obtain rfl : pwitnesses = qwitnesses := Except.ok.inj (hpw.symm.trans hqw)
  rfl

end

/-! ## roles -/

/-- the roles of an entry, each with the witness that it passes -/
inductive RoleOf (planned : PlannedEntry) : WitnessRole → Prop
  | template {spec : TemplateWitnessSpec} (part : WitnessPart)
      (hmem : spec ∈ planned.passedTemplates) : RoleOf planned (.template spec part)
  | routeFamily {family : RouteFamily} (hmem : family ∈ planned.witnesses.families) :
      RoleOf planned (.routeFamily family)
  | selector {chosen : TemplateSelector} (part : WitnessPart)
      (hmem : chosen ∈ planned.witnesses.selectors) : RoleOf planned (.selector chosen part)
  | observed {spec : ObservedActorWitnessSpec} (part : WitnessPart)
      (hmem : spec ∈ planned.witnesses.observedActors) : RoleOf planned (.observed spec part)
  | observedHash {spec : ObservedActorWitnessSpec}
      (hmem : spec ∈ planned.witnesses.observedActors) : RoleOf planned (.observedHash spec)
  | spawnIndex {spec : SpawnActorWitnessSpec} (hmem : spec ∈ planned.witnesses.spawnOutputs) :
      RoleOf planned (.spawnIndex spec)
  | actorType {spec : ActorTypeSourceWitnessSpec} (part : WitnessPart)
      (hmem : spec ∈ planned.witnesses.actorTypeSourceTemplates) :
      RoleOf planned (.actorType spec part)
  | stateExpansion {spec : StateExpansionWitnessSpec}
      (hmem : spec ∈ planned.witnesses.stateExpansions) : RoleOf planned (.stateExpansion spec)
  | observedOutputField {spec : ObservedOutputFieldWitnessSpec}
      (hmem : spec ∈ planned.witnesses.observedOutputFields) :
      RoleOf planned (.observedOutputField spec)

theorem mem_flatMap_bothParts {α : Type} {l : List α} {role : α → WitnessPart → WitnessRole}
    {r : WitnessRole} : r ∈ l.flatMap (fun a => bothParts (role a)) ↔
      ∃ a ∈ l, ∃ part, r = role a part := by
  rw [List.mem_flatMap]
  constructor
  · rintro ⟨a, ha, hr⟩
    obtain rfl | hr := List.mem_cons.mp hr
    · exact ⟨a, ha, .leading, rfl⟩
    · exact ⟨a, ha, .trailing, List.mem_singleton.mp hr⟩
  · rintro ⟨a, ha, part, rfl⟩
    exact ⟨a, ha, mem_bothParts part⟩

theorem roleOf_of_mem {planned : PlannedEntry} {role : WitnessRole}
    (hrole : role ∈ planned.roles) : RoleOf planned role := by
  simp only [PlannedEntry.roles, EntryWitnesses.roles, List.mem_append] at hrole
  obtain (((((((h | h) | h) | h) | h) | h) | h) | h) := hrole
  · obtain ⟨spec, hmem, part, rfl⟩ := mem_flatMap_bothParts.mp h
    exact .template part hmem
  · obtain ⟨family, hmem, rfl⟩ := List.mem_map.mp h
    exact .routeFamily hmem
  · obtain ⟨chosen, hmem, part, rfl⟩ := mem_flatMap_bothParts.mp h
    exact .selector part hmem
  · obtain ⟨spec, hmem, hspec⟩ := List.mem_flatMap.mp h
    obtain hspec | hspec := List.mem_append.mp hspec
    · obtain rfl | hspec := List.mem_cons.mp hspec
      · exact .observed .leading hmem
      · rw [List.mem_singleton.mp hspec]
        exact .observed .trailing hmem
    · split at hspec
      · rw [List.mem_singleton.mp hspec]
        exact .observedHash hmem
      · exact absurd hspec List.not_mem_nil
  · obtain ⟨spec, hmem, rfl⟩ := List.mem_map.mp h
    exact .spawnIndex hmem
  · obtain ⟨spec, hmem, part, rfl⟩ := mem_flatMap_bothParts.mp h
    exact .actorType part hmem
  · obtain ⟨spec, hmem, rfl⟩ := List.mem_map.mp h
    exact .stateExpansion hmem
  · obtain ⟨spec, hmem, rfl⟩ := List.mem_map.mp h
    exact .observedOutputField hmem

theorem template_mem_roles {planned : PlannedEntry} {spec : TemplateWitnessSpec}
    (hmem : spec ∈ planned.passedTemplates) (part : WitnessPart) :
    .template spec part ∈ planned.roles := by
  simp only [PlannedEntry.roles, EntryWitnesses.roles, List.mem_append]
  exact .inl (.inl (.inl (.inl (.inl (.inl (.inl
    (mem_flatMap_bothParts.mpr ⟨spec, hmem, part, rfl⟩)))))))

theorem observed_mem_roles {planned : PlannedEntry} {spec : ObservedActorWitnessSpec}
    (hmem : spec ∈ planned.witnesses.observedActors) (part : WitnessPart) :
    .observed spec part ∈ planned.roles := by
  simp only [PlannedEntry.roles, EntryWitnesses.roles, List.mem_append]
  refine .inl (.inl (.inl (.inl (.inr (List.mem_flatMap.mpr ⟨spec, hmem, ?_⟩)))))
  exact List.mem_append_left _ (mem_bothParts part)

theorem outputField_mem_roles {planned : PlannedEntry} {spec : ObservedOutputFieldWitnessSpec}
    (hmem : spec ∈ planned.witnesses.observedOutputFields) :
    .observedOutputField spec ∈ planned.roles := by
  simp only [PlannedEntry.roles, EntryWitnesses.roles, List.mem_append]
  exact .inr (List.mem_map.mpr ⟨spec, hmem, rfl⟩)

/-! ## names -/

/-- the names of the entry are identifiers, so their segments contain no separator -/
theorem slashFree_entryName {app : WitnessApp} {planned : PlannedEntry} (h : Planned app planned)
    {name : String} (hname : name ∈ entryNames planned.actor planned.entry) : SlashFree name :=
  slashFree_of_isIdentifier (app.named _ h.actor_mem _ h.entry_mem name hname)

section
variable {planned : PlannedEntry} {group : ObserveDecl × CovenantGroup}
  (hgroup : group ∈ planned.entry.existingGroups)
include hgroup

theorem observe_mem_entryNames : group.1.name ∈ entryNames planned.actor planned.entry := by
  refine List.mem_append_left _ (List.mem_append_right _ (List.mem_flatMap.mpr ⟨group, hgroup, ?_⟩))
  exact List.mem_cons_self

theorem output_mem_entryNames {item : EntryInteraction} (hitem : item ∈ group.2.outputs.items) :
    item.handle ∈ entryNames planned.actor planned.entry := by
  refine List.mem_append_left _ (List.mem_append_right _ (List.mem_flatMap.mpr ⟨group, hgroup, ?_⟩))
  exact List.mem_cons_of_mem _ (List.mem_map_of_mem (List.mem_append_right _ hitem))

end

theorem slashFree_observedSegment {spec : ObservedActorWitnessSpec} {part : Option WitnessPart}
    (hobserve : SlashFree spec.observe) {segment : String}
    (h : segment ∈ (RecipeKey.observed spec.observe spec.side (observedActorSpecSuffix spec)
      part).middle) : SlashFree segment := by
  simp only [RecipeKey.middle, List.mem_cons, List.not_mem_nil, or_false] at h
  obtain rfl | rfl | rfl | rfl := h
  · decide
  · exact hobserve
  · cases spec.side <;> decide
  · exact slashFree_observedActorSpecSuffix _

theorem observe_of_mem {bindings : String → ClauseBindings} {entry : EntryModel}
    {spec : ObservedActorWitnessSpec} (h : spec ∈ entryObserved bindings entry) :
    ∃ group ∈ entry.existingGroups, spec.observe = group.1.name := by
  obtain ⟨group, hgroup, hspec⟩ := List.mem_flatMap.mp h
  obtain ⟨site, _, rfl⟩ := List.mem_map.mp hspec
  exact ⟨group, hgroup, rfl⟩

theorem outputField_of_mem {bindings : String → ClauseBindings} {entry : EntryModel}
    {spec : ObservedOutputFieldWitnessSpec} (h : spec ∈ entryOutputFields bindings entry) :
    ∃ group ∈ entry.existingGroups, ∃ output ∈ group.2.outputs.items,
      spec.observe = group.1.name ∧ spec.handle = output.handle ∧
        isIdentifier spec.state = true ∧ isIdentifier spec.field = true := by
  obtain ⟨group, hgroup, hspec⟩ := List.mem_flatMap.mp (mem_of_mem_firsts h)
  obtain ⟨output, houtput, hspec⟩ := List.mem_flatMap.mp hspec
  unfold outputFields at hspec
  split at hspec
  · exact absurd hspec List.not_mem_nil
  · rename_i state _
    obtain ⟨field, _, rfl⟩ := List.mem_map.mp hspec
    exact ⟨group, hgroup, output, houtput, rfl, rfl, state.name.2, field.name.2⟩

theorem spawnOutputs_handles {bindings : String → ClauseBindings} {entry : EntryModel}
    {specs : List SpawnActorWitnessSpec} (h : entrySpawnOutputs bindings entry = .ok specs) :
    specs.map (fun spec => (spec.spawn, spec.handle)) = spawnHandles entry := by
  rw [map_of_mapM_ok h (k := fun site => (site.1, site.2.handle)) fun site spec hspec => ?_]
  · rw [spawnHandles, List.map_flatMap]
    simp only [List.map_map]
    rfl
  · obtain ⟨actor, _, hspec⟩ := bind_eq_ok.mp hspec
    obtain rfl := pure_eq_ok.mp hspec
    rfl

theorem spawnHandles_named {planned : PlannedEntry} {spec : SpawnActorWitnessSpec}
    (h : (spec.spawn, spec.handle) ∈ spawnHandles planned.entry) :
    spec.spawn ∈ entryNames planned.actor planned.entry ∧
      spec.handle ∈ entryNames planned.actor planned.entry := by
  obtain ⟨group, hgroup, hsite⟩ := List.mem_flatMap.mp h
  obtain ⟨output, houtput, hsite⟩ := List.mem_map.mp hsite
  obtain ⟨hspawn, hhandle⟩ := Prod.mk.inj hsite
  constructor
  · refine List.mem_append_right _ (List.mem_flatMap.mpr ⟨group, hgroup, ?_⟩)
    rw [← hspawn]
    exact List.mem_cons_self
  · refine List.mem_append_right _ (List.mem_flatMap.mpr ⟨group, hgroup, ?_⟩)
    rw [← hhandle]
    exact List.mem_cons_of_mem _ (List.mem_map_of_mem houtput)

/-- **no segment of the id of a planned role contains the separator** -/
theorem key_named {app : WitnessApp} {planned : PlannedEntry} (h : Planned app planned)
    {role : WitnessRole} (hrole : role ∈ planned.roles) :
    (role.recipeKey planned.actor.name planned.entry.name).Named := by
  have hw := entryWitnesses_ok h.witnesses
  have hactor := slashFree_of_isIdentifier (app.identifiers _ h.actor_mem)
  have hentry : SlashFree planned.entry.name := slashFree_entryName h <|
    List.mem_append_left _ (List.mem_append_left _ (List.mem_append_left _
      (List.mem_cons_of_mem _ List.mem_cons_self)))
  intro segment hsegment
  cases roleOf_of_mem hrole with
  | template part hmem =>
    rw [List.mem_singleton.mp hsegment]
    exact slashFree_hiddenActorSuffix _
  | routeFamily hmem =>
    rw [List.mem_singleton.mp hsegment]
    exact slashFree_routeFamilySuffix _
  | @selector chosen part hmem =>
    have hname : SlashFree chosen.name := by
      refine slashFree_entryName h (List.mem_append_left _ (List.mem_append_left _
        (List.mem_append_right _ (List.mem_map_of_mem ?_))))
      rw [← hw.selectors]
      exact hmem
    simp only [WitnessRole.recipeKey, RecipeKey.middle, List.mem_cons, List.not_mem_nil,
      or_false] at hsegment
    obtain rfl | rfl := hsegment
    · decide
    · exact hname
  | @observed spec part hmem =>
    obtain ⟨group, hgroup, hobserve⟩ := observe_of_mem (hw.observed spec hmem).1
    have hname := slashFree_entryName h (observe_mem_entryNames hgroup)
    exact slashFree_observedSegment (hobserve ▸ hname) hsegment
  | @observedHash spec hmem =>
    obtain ⟨group, hgroup, hobserve⟩ := observe_of_mem (hw.observed spec hmem).1
    have hname := slashFree_entryName h (observe_mem_entryNames hgroup)
    exact slashFree_observedSegment (hobserve ▸ hname) hsegment
  | @spawnIndex spec hmem =>
    have hnamed : (spec.spawn, spec.handle) ∈ spawnHandles planned.entry :=
      spawnOutputs_handles hw.spawned ▸ List.mem_map_of_mem hmem
    obtain ⟨hspawn, hhandle⟩ := spawnHandles_named hnamed
    simp only [WitnessRole.recipeKey, RecipeKey.middle, List.mem_cons, List.not_mem_nil,
      or_false] at hsegment
    obtain rfl | rfl | rfl | rfl | rfl := hsegment
    · exact hactor
    · exact hentry
    · decide
    · exact slashFree_entryName h hspawn
    · exact slashFree_entryName h hhandle
  | @actorType spec part hmem =>
    simp only [WitnessRole.recipeKey, RecipeKey.middle, List.mem_cons, List.not_mem_nil,
      or_false] at hsegment
    obtain rfl | rfl | rfl | rfl := hsegment
    · exact hactor
    · exact hentry
    · decide
    · exact slashFree_clauseActorTypeWitnessSuffix _
  | @stateExpansion spec hmem =>
    rw [hw.expansions] at hmem
    obtain ⟨digest, _, rfl⟩ := List.mem_map.mp hmem
    simp only [WitnessRole.recipeKey, RecipeKey.middle, List.mem_cons, List.not_mem_nil,
      or_false] at hsegment
    obtain rfl | rfl | rfl | rfl := hsegment
    · decide
    · exact slashFree_entryName h (List.mem_append_left _ (List.mem_append_left _
        (List.mem_append_left _ List.mem_cons_self)))
    · exact slashFree_of_isIdentifier digest.field.2
    · exact slashFree_toSnake (slashFree_of_isIdentifier digest.memoryState.2)
  | @observedOutputField spec hmem =>
    rw [hw.outputFields] at hmem
    obtain ⟨group, hgroup, output, houtput, hobserve, hhandle, hstate, hfield⟩ :=
      outputField_of_mem hmem
    simp only [WitnessRole.recipeKey, RecipeKey.middle, List.mem_cons, List.not_mem_nil,
      or_false] at hsegment
    obtain rfl | rfl | rfl | rfl | rfl | rfl := hsegment
    · decide
    · exact hobserve ▸ slashFree_entryName h (observe_mem_entryNames hgroup)
    · decide
    · exact hhandle ▸ slashFree_entryName h (output_mem_entryNames hgroup houtput)
    · exact slashFree_toSnake (slashFree_of_isIdentifier hstate)
    · exact slashFree_of_isIdentifier hfield

/-! ## equal ids -/

/-- only the witnesses of actor-type values have a source value -/
theorem source_eq_none {bindings : String → ClauseBindings} {entry : EntryModel}
    {spec : ObservedActorWitnessSpec} (h : spec ∈ entryObserved bindings entry)
    (hvalue : spec.templateSource ≠ .actorTypeValue) : spec.source = none := by
  obtain ⟨group, _, hspec⟩ := List.mem_flatMap.mp h
  obtain ⟨site, _, rfl⟩ := List.mem_map.mp hspec
  cases htarget : site.2.target with
  | «static» actors | unresolvedStatic names =>
    simp only [ObservedActorWitnessSpec.forDecl, htarget, ClauseBindings.ofTarget,
      SourceBinding.actorTypeRef]
  | source expression =>
    cases hbinding : bindings group.1.name expression with
    | dynamicBinding binding state | unbound =>
      simp only [ObservedActorWitnessSpec.forDecl, htarget, ClauseBindings.ofTarget, hbinding,
        SourceBinding.actorTypeRef]
    | actorType source state =>
      refine absurd ?_ hvalue
      simp only [ObservedActorWitnessSpec.forDecl, observedTemplateSource, htarget,
        ActorTarget.singleStaticActor, ClauseBindings.ofTarget, hbinding]

theorem clauseActorTypeWitnessSuffix_injective :
    Function.Injective clauseActorTypeWitnessSuffix := by
  intro source source' h
  have hlist := congrArg String.toList h
  cases source with
  | stateField field =>
    cases source' with
    | stateField field' =>
      simp only [clauseActorTypeWitnessSuffix, String.toList_append] at hlist
      rw [Subtype.ext (String.toList_injective (List.append_cancel_left hlist))]
    | entryArgument name' =>
      have hhead := congrArg List.head? hlist
      exact absurd hhead (by simp [clauseActorTypeWitnessSuffix])
  | entryArgument name =>
    cases source' with
    | stateField field' =>
      have hhead := congrArg List.head? hlist
      exact absurd hhead (by simp [clauseActorTypeWitnessSuffix])
    | entryArgument name' =>
      simp only [clauseActorTypeWitnessSuffix, String.toList_append] at hlist
      rw [Subtype.ext (String.toList_injective (List.append_cancel_left hlist))]

theorem mem_plan_of_mem_families {app : WitnessApp} {planned : PlannedEntry}
    (h : Planned app planned) {family : RouteFamily} (hmem : family ∈ planned.witnesses.families) :
    family ∈ app.plan.families := by
  obtain ⟨templates, _, hbase⟩ := bind_eq_ok.mp (entryWitnesses_ok h.witnesses).base
  obtain ⟨opened, _, hbase⟩ := bind_eq_ok.mp hbase
  rw [← pure_eq_ok.mp hbase] at hmem
  obtain ⟨id, _, hfamily⟩ := List.mem_filterMap.mp hmem
  exact List.mem_of_find?_eq_some hfamily

section
variable {app : WitnessApp} {entries : List PlannedEntry} (h : app.plannedEntries = .ok entries)
include h

theorem stateExpansion_agree {p q : PlannedEntry} (hp : p ∈ entries) (hq : q ∈ entries)
    {spec spec' : StateExpansionWitnessSpec} (hmem : spec ∈ p.witnesses.stateExpansions)
    (hmem' : spec' ∈ q.witnesses.stateExpansions) (hstate : spec.state = spec'.state)
    (hfield : spec.field = spec'.field) : spec = spec' := by
  rw [(entryWitnesses_ok (planned_of_mem h hp).witnesses).expansions] at hmem
  rw [(entryWitnesses_ok (planned_of_mem h hq).witnesses).expansions] at hmem'
  obtain ⟨digest, hdigest, rfl⟩ := List.mem_map.mp hmem
  obtain ⟨digest', hdigest', rfl⟩ := List.mem_map.mp hmem'
  have hsame : p.actor.state = q.actor.state := hstate
  rw [← hsame] at hdigest'
  have heq := List.inj_on_of_nodup_map (app.digests_nodup _) hdigest hdigest' (Subtype.ext hfield)
  rw [heq, hsame]

/-- **parameters of one key are one parameter when the kinds are separated** -/
theorem hiddenParam_agree (hseparated : RecipesSeparated entries) {p q : PlannedEntry}
    (hp : p ∈ entries) (hq : q ∈ entries) {role role' : WitnessRole} (hrole : role ∈ p.roles)
    (hrole' : role' ∈ q.roles)
    (hkey : role.recipeKey p.actor.name p.entry.name =
      role'.recipeKey q.actor.name q.entry.name) :
    witnessRoleName role = witnessRoleName role' ∧ role.subject = role'.subject := by
  have hwp := entryWitnesses_ok (planned_of_mem h hp).witnesses
  have hwq := entryWitnesses_ok (planned_of_mem h hq).witnesses
  cases roleOf_of_mem hrole with
  | @template spec part hmem =>
    cases roleOf_of_mem hrole' with
    | @template spec' part' hmem' =>
      obtain ⟨hsuffix, hform, rfl⟩ := RecipeKey.template.inj hkey
      have hactor := hseparated.templates p hp q hq _ hmem _ hmem' hform hsuffix
      simp only [witnessRoleName, WitnessRole.subject, hactor, hform, and_self]
    | _ => cases hkey
  | @routeFamily family hmem =>
    cases roleOf_of_mem hrole' with
    | @routeFamily family' hmem' =>
      have hname : hiddenRouteFamilyTableName family.id = hiddenRouteFamilyTableName family'.id := by
        rw [hiddenRouteFamilyTableName, RecipeKey.routeFamily.inj hkey]
        rfl
      rw [app.tableName_inj (mem_plan_of_mem_families (planned_of_mem h hp) hmem)
        (mem_plan_of_mem_families (planned_of_mem h hq) hmem') hname]
      exact ⟨rfl, rfl⟩
    | _ => cases hkey
  | @selector chosen part hmem =>
    cases roleOf_of_mem hrole' with
    | @selector chosen' part' hmem' =>
      obtain ⟨hname, rfl⟩ := RecipeKey.selector.inj hkey
      simp only [witnessRoleName, WitnessRole.subject, hname, and_self]
    | _ => cases hkey
  | @observed spec part hmem =>
    cases roleOf_of_mem hrole' with
    | @observed spec' part' hmem' =>
      obtain ⟨hobserve, hside, hsuffix, hpart⟩ := RecipeKey.observed.inj hkey
      obtain rfl := Option.some_inj.mp hpart
      obtain ⟨hhandle, hactor⟩ := hseparated.observed p hp q hq _ hmem _ hmem' hobserve hside hsuffix
      obtain ⟨hspec, hvalue⟩ := hwp.observed _ hmem
      obtain ⟨hspec', hvalue'⟩ := hwq.observed _ hmem'
      simp only [witnessRoleName, hiddenObservedActorName, source_eq_none hspec hvalue,
        source_eq_none hspec' hvalue', WitnessRole.subject, observedActorSubject, hobserve, hside,
        hhandle, hactor, hsuffix, and_self]
    | observedHash hmem' => cases (RecipeKey.observed.inj hkey).2.2.2
    | _ => cases hkey
  | @observedHash spec hmem =>
    cases roleOf_of_mem hrole' with
    | @observedHash spec' hmem' =>
      obtain ⟨hobserve, hside, hsuffix, -⟩ := RecipeKey.observed.inj hkey
      obtain ⟨hhandle, hactor⟩ := hseparated.observed p hp q hq _ hmem _ hmem' hobserve hside hsuffix
      simp only [witnessRoleName, WitnessRole.subject, observedActorSubject, hobserve, hside,
        hhandle, hactor, hsuffix, and_self]
    | observed part' hmem' => cases (RecipeKey.observed.inj hkey).2.2.2
    | _ => cases hkey
  | @spawnIndex spec hmem =>
    cases roleOf_of_mem hrole' with
    | @spawnIndex spec' hmem' =>
      obtain ⟨hactor, hentry, hspawn, hhandle⟩ := RecipeKey.spawnIndex.inj hkey
      obtain rfl := planned_unique h hp hq hactor hentry
      have hnodup : (p.witnesses.spawnOutputs.map fun spec => (spec.spawn, spec.handle)).Nodup := by
        rw [spawnOutputs_handles hwp.spawned]
        exact app.spawns_nodup _ (planned_of_mem h hp).actor_mem _ (planned_of_mem h hp).entry_mem
      rw [List.inj_on_of_nodup_map hnodup hmem hmem' (Prod.ext hspawn hhandle)]
      exact ⟨rfl, rfl⟩
    | _ => cases hkey
  | @actorType spec part hmem =>
    cases roleOf_of_mem hrole' with
    | @actorType spec' part' hmem' =>
      obtain ⟨hactor, hentry, hsuffix, hform, rfl⟩ := RecipeKey.actorType.inj hkey
      obtain rfl := planned_unique h hp hq hactor hentry
      have hsource := clauseActorTypeWitnessSuffix_injective hsuffix
      obtain ⟨observed, hlist⟩ := hwp.actorTypes
      rw [hlist] at hmem hmem'
      rw [firsts_inj hmem hmem' (Prod.ext hsource hform)]
      exact ⟨rfl, rfl⟩
    | _ => cases hkey
  | @stateExpansion spec hmem =>
    cases roleOf_of_mem hrole' with
    | @stateExpansion spec' hmem' =>
      obtain ⟨hstate, hfield, -⟩ := RecipeKey.stateExpansion.inj hkey
      rw [stateExpansion_agree h hp hq hmem hmem' hstate hfield]
      exact ⟨rfl, rfl⟩
    | _ => cases hkey
  | @observedOutputField spec hmem =>
    cases roleOf_of_mem hrole' with
    | @observedOutputField spec' hmem' =>
      obtain ⟨hobserve, hhandle, hstate, hfield⟩ := RecipeKey.observedOutputField.inj hkey
      have hsame := hseparated.outputFields p hp q hq _ hmem _ hmem' hobserve hhandle hfield hstate
      simp only [witnessRoleName, WitnessRole.subject, hobserve, hhandle, hsame, hfield, and_self]
    | _ => cases hkey

/-! ## recipes -/

/-- parameters that agree have one recipe -/
theorem recipes_identified (hseparated : RecipesSeparated entries) :
    ∀ param ∈ entries.flatMap (·.hiddenParams), ∀ other ∈ entries.flatMap (·.hiddenParams),
      param.recipeId = other.recipeId → param.name = other.name ∧ param.subject = other.subject ∧
        param.purpose = other.purpose ∧ param.routeProofId = other.routeProofId := by
  intro param hparam other hother hid
  obtain ⟨p, hp, hparam⟩ := List.mem_flatMap.mp hparam
  obtain ⟨q, hq, hother⟩ := List.mem_flatMap.mp hother
  obtain ⟨role, hrole, rfl⟩ := List.mem_map.mp hparam
  obtain ⟨role', hrole', rfl⟩ := List.mem_map.mp hother
  have hkey := RecipeKey.id_injective (key_named (planned_of_mem h hp) hrole)
    (key_named (planned_of_mem h hq) hrole') hid
  obtain ⟨hname, hsubject⟩ := hiddenParam_agree h hseparated hp hq hrole hrole' hkey
  exact ⟨hname, hsubject, congrArg RecipeKey.purpose hkey, rfl⟩

end

theorem witnessRecipes_distinct (app : App) (entries : List PlannedEntry) :
    ((witnessRecipes app entries).map (·.id)).Nodup := by
  rw [witnessRecipes, List.map_map]
  exact @nodup_firsts _ _ _ (fun param : HiddenParamArtifact => param.recipeId) _

theorem witnessRecipes_used {app : App} {entries : List PlannedEntry}
    {recipe : WitnessRecipeArtifact} (h : recipe ∈ witnessRecipes app entries) :
    ∃ planned ∈ entries, ∃ param ∈ planned.hiddenParams, recipe = recipeOf app param := by
  obtain ⟨param, hparam, rfl⟩ := List.mem_map.mp h
  obtain ⟨planned, hplanned, hparam⟩ := List.mem_flatMap.mp (mem_of_mem_firsts hparam)
  exact ⟨planned, hplanned, param, hparam, rfl⟩

/-- the artifact check finds the recipe of a parameter when equal ids are ids of equal parameters -/
theorem recipes_accepted {app : App} {entries : List PlannedEntry}
    (hidentified : ∀ param ∈ entries.flatMap (·.hiddenParams),
      ∀ other ∈ entries.flatMap (·.hiddenParams), param.recipeId = other.recipeId →
        param.name = other.name ∧ param.subject = other.subject ∧
          param.purpose = other.purpose ∧ param.routeProofId = other.routeProofId)
    {check : WitnessRecipeArtifact → PlanCheck PUnit}
    {byId : BTreeMap String WitnessRecipeArtifact}
    (hindex : indexRecipes check (witnessRecipes app entries) = .ok byId) {planned : PlannedEntry}
    (hplanned : planned ∈ entries) {param : HiddenParamArtifact}
    (hparam : param ∈ planned.hiddenParams) :
    checkHiddenParam byId planned.label param = .ok ⟨⟩ ∧
      checkEntryWitness byId planned.label (witnessOf param) = .ok ⟨⟩ := by
  have hmem : param ∈ entries.flatMap (·.hiddenParams) :=
    List.mem_flatMap.mpr ⟨planned, hplanned, hparam⟩
  obtain ⟨first, hfirst, hid⟩ :=
    @exists_firsts _ _ _ (fun p : HiddenParamArtifact => p.recipeId) _ _ hmem
  obtain ⟨hname, hsubject, hpurpose, hproof⟩ :=
    hidentified first (mem_of_mem_firsts hfirst) param hmem hid
  have hget : byId.get param.recipeId = some (recipeOf app first) := by
    rw [← hid]
    exact (indexUnique_ok hindex).1.get_key (List.mem_map_of_mem hfirst)
  constructor
  · refine bind_eq_ok.mpr ⟨recipeOf app first, okOr_eq_ok.mpr hget, rejectIf_eq_ok.mpr ?_⟩
    simp only [recipeOf, hname, hsubject, hpurpose, hproof, ne_eq, not_true_eq_false, or_self,
      not_false_eq_true]
  · refine bind_eq_ok.mpr ⟨recipeOf app first, okOr_eq_ok.mpr hget, rejectIf_eq_ok.mpr ?_⟩
    simp only [recipeOf, witnessOf, hname, hsubject, hpurpose, hproof, ne_eq, not_true_eq_false,
      or_self, not_false_eq_true]

/-- a role of a planned entry gives a parameter of the app -/
theorem mem_params {entries : List PlannedEntry} {planned : PlannedEntry}
    (hplanned : planned ∈ entries) {role : WitnessRole} (hrole : role ∈ planned.roles) :
    hiddenParam planned.actor.name planned.entry.name role ∈ entries.flatMap (·.hiddenParams) :=
  List.mem_flatMap.mpr ⟨planned, hplanned, List.mem_map_of_mem hrole⟩

/-- faithful recipes need ids that leave nothing out -/
theorem RecipesFaithful.separated {app : App} {entries : List PlannedEntry}
    (h : RecipesFaithful app entries) : RecipesSeparated entries := by
  have hsubject : ∀ {p q : PlannedEntry}, p ∈ entries → q ∈ entries → ∀ {role role' : WitnessRole},
      role ∈ p.roles → role' ∈ q.roles →
      role.recipeKey p.actor.name p.entry.name = role'.recipeKey q.actor.name q.entry.name →
      role.subject = role'.subject := by
    intro p q hp hq role role' hrole hrole' hkey
    exact (h.identified _ (mem_params hp hrole) _ (mem_params hq hrole')
      (congrArg RecipeKey.id hkey)).2.1
  constructor
  · intro p hp q hq s hs t ht hform hsuffix
    have heq := hsubject hp hq (template_mem_roles hs .leading) (template_mem_roles ht .leading) <| by
      simp only [WitnessRole.recipeKey, hform, hsuffix]
    exact HiddenParamSubjectArtifact.actor.inj heq
  · intro p hp q hq s hs t ht hobserve hside hsuffix
    have heq := hsubject hp hq (observed_mem_roles hs .leading) (observed_mem_roles ht .leading) <| by
      simp only [WitnessRole.recipeKey, hobserve, hside, hsuffix]
    obtain ⟨-, -, hhandle, hactor⟩ := HiddenParamSubjectArtifact.observedActor.inj heq
    exact ⟨hhandle, hactor⟩
  · intro p hp q hq s hs t ht hobserve hhandle hfield hstate
    have heq := hsubject hp hq (outputField_mem_roles hs) (outputField_mem_roles ht) <| by
      simp only [WitnessRole.recipeKey, hobserve, hhandle, hfield, hstate]
    exact (HiddenParamSubjectArtifact.observedOutputField.inj heq).2.2.1

/-- **Recipes are faithful exactly when the kinds are separated**: in every app, equal recipe ids are
ids of equal parameters if and only if no passed templates share a suffix, no observed actors share
their observe root, side and suffix, and no states of output fields differ only in their case. -/
theorem recipes_faithful_iff (app : WitnessApp) (entries : List PlannedEntry)
    (h : app.plannedEntries = .ok entries) :
    RecipesFaithful app.toApp entries ↔ RecipesSeparated entries := by
  refine ⟨RecipesFaithful.separated, fun hseparated => ?_⟩
  have hidentified := recipes_identified h hseparated
  exact ⟨hidentified, witnessRecipes_distinct app.toApp entries,
    fun check byId hindex planned hplanned param hparam =>
      recipes_accepted hidentified hindex hplanned hparam,
    fun recipe => witnessRecipes_used⟩

/-! ## one observe root, two handles -/

/-- an agent that is observed under a handle and written back under it -/
def observeAgent (handle : String) : ObserveDecl × CovenantGroup :=
  let agent : InteractionSection :=
    ⟨[⟨handle, .source "observed_agent", .one, .fromStart 0⟩], rfl⟩
  (⟨"remote"⟩, ⟨.existing ⟨"remote"⟩, agent, agent⟩)

/-- an entry that observes an agent and stays as it is -/
def cellEntry (name handle : String) : EntryModel where
  name := name
  kind := .leader
  current := {
    covenant := .current
    inputs := .empty
    outputs := ⟨[⟨"cell", .static [.inApp "Cell"], .one, .fromStart 0⟩], rfl⟩ }
  foreign := [(observeAgent handle).2]
  templateSelectors := []
  body := [.become [⟨0, "cell", .exactSelf⟩]]
  analysis := ⟨[⟨0, "cell", .exactSelf⟩], [[⟨0, "cell", .exactSelf⟩]]⟩
  analyzed := rfl
  delegateEmits := nofun

/-- an actor whose entries observe an agent, under one handle or under two -/
def cellActor (same : Bool) : ActorModel :=
  ⟨"Cell", "CellState",
    [cellEntry "advance" "agent", cellEntry "retreat" (if same then "agent" else "target")]⟩

def cellApp (same : Bool) : App where
  name := "Test"
  actors := [cellActor same]
  distinct := List.nodup_singleton _
  identifiers := by
    revert same
    decide +kernel

theorem cellApp_planned : ∀ same, (inferDirectRoutes (cellApp same)).isOk = true := by
  decide +kernel

theorem cellApp_suffixes : ∀ same, validateGeneratedActorSuffixes (cellApp same) = .ok () := by
  decide +kernel

theorem cellApp_validated : ∀ same, ∀ actor ∈ (cellApp same).actors, ∀ entry ∈ actor.entries,
    validateEntry (cellApp same) actor entry = .ok () := by
  decide +kernel

/-- the binding `observed_agent` of an open state -/
def agentBinding : SourceBinding :=
  .dynamicBinding (.ofLocal 0) ⟨⟨"AgentCapsule", by decide +kernel⟩, []⟩

theorem cellApp_named : ∀ same, ∀ actor ∈ (cellApp same).actors, ∀ entry ∈ actor.entries,
    (spawnHandles entry).Nodup ∧ ∀ name ∈ entryNames actor entry, isIdentifier name = true := by
  decide +kernel

theorem cellApp_entries : ∀ same, ∀ actor ∈ (cellApp same).actors,
    (actor.entries.map (·.name)).Nodup := by
  decide +kernel

def cellWitnesses (same : Bool) : WitnessApp where
  toCompiledApp := (cellApp same).compiled (cellApp_planned same) (cellApp_suffixes same)
    (cellApp_validated same)
  bindings := fun _ _ _ _ => agentBinding
  digests := fun _ => []
  digests_nodup := fun _ => List.nodup_nil
  entries_nodup := cellApp_entries same
  spawns_nodup := fun actor hactor entry hentry => (cellApp_named same actor hactor entry hentry).1
  named := fun actor hactor entry hentry => (cellApp_named same actor hactor entry hentry).2

theorem cellWitnesses_planned : ∀ same, (cellWitnesses same).plannedEntries.toOption.isSome = true := by
  decide +kernel

/-- the witnesses of both entries have one recipe, which names the handle of the first -/
theorem recipes_handles : ¬ ∀ (app : WitnessApp) (entries : List PlannedEntry),
    app.plannedEntries = .ok entries → RecipesFaithful app.toApp entries := by
  intro hall
  have hplanned := eq_ok_get (cellWitnesses_planned false)
  have hseparated := (hall _ _ hplanned).separated
  have hclash : ∃ p ∈ (cellWitnesses false).plannedEntries.toOption.get
        (cellWitnesses_planned false),
      ∃ q ∈ (cellWitnesses false).plannedEntries.toOption.get (cellWitnesses_planned false),
      ∃ s ∈ p.witnesses.observedActors, ∃ t ∈ q.witnesses.observedActors,
        s.observe = t.observe ∧ s.side = t.side ∧
          observedActorSpecSuffix s = observedActorSpecSuffix t ∧ s.handle ≠ t.handle := by
    decide +kernel
  obtain ⟨p, hp, q, hq, s, hs, t, ht, hobserve, hside, hsuffix, hne⟩ := hclash
  exact hne (hseparated.observed p hp q hq s hs t ht hobserve hside hsuffix).1

/-- under one handle the recipes are faithful exactly when the kinds are separated -/
theorem recipes_faithful_cell : ∃ entries, (cellWitnesses true).plannedEntries = .ok entries ∧
    (RecipesFaithful (cellWitnesses true).toApp entries ↔ RecipesSeparated entries) :=
  ⟨_, eq_ok_get (cellWitnesses_planned true),
    recipes_faithful_iff (cellWitnesses true) _ (eq_ok_get (cellWitnesses_planned true))⟩

end Argent.Codegen
