import Argent.Model.Carried
import Argent.Model.OutputTargets

/-!
# State layouts of the targets

Every target that a contract can write is laid out from one state: its stored fields follow the
generated ones, and no two generated fields have one identity.

* `tableOf_some`             a table has the pairs of its list;
* `stateLayouts_ok`          the authored fields of a state, beside the stored ones;
* `LaidOut`                  a plan whose relations and layout come from one state;
* `contractStateLowering_laidOut`      **every target of a contract is laid out**.
-/

set_option linter.unusedSectionVars false

namespace Argent.Model
open Argent.Fallible

/-! ## tables -/

theorem tableOf_foldl {α β : Type} [DecidableEq α] {pairs : List (α × β)} : ∀ {table : α → Option β}
    {a : α} {b : β},
    pairs.foldl (fun (table : α → Option β) pair => Function.update table pair.1 (some pair.2)) table
        a = some b →
      (a, b) ∈ pairs ∨ table a = some b := by
  induction pairs with
  | nil => exact fun h => Or.inr h
  | cons pair pairs ih =>
    intro table a b h
    obtain h | h := ih h
    · exact Or.inl (List.mem_cons_of_mem _ h)
    · change Function.update table pair.1 (some pair.2) a = some b at h
      by_cases ha : a = pair.1
      · rw [ha, Function.update_self, Option.some_inj] at h
        rw [ha, ← h]
        exact Or.inl List.mem_cons_self
      · rw [Function.update_of_ne ha] at h
        exact Or.inr h

theorem tableOf_some {α β : Type} [DecidableEq α] {pairs : List (α × β)} {a : α} {b : β}
    (h : tableOf pairs a = some b) : (a, b) ∈ pairs := by
  obtain h | h := tableOf_foldl h
  · exact h
  · cases h

theorem exists_tableOf_foldl {α β : Type} [DecidableEq α] {pairs : List (α × β)} :
    ∀ {table : α → Option β} {a : α},
    a ∈ pairs.map Prod.fst ∨ (table a).isSome = true →
      (pairs.foldl (fun (table : α → Option β) pair => Function.update table pair.1 (some pair.2))
        table a).isSome = true := by
  induction pairs with
  | nil =>
    intro table a h
    obtain h | h := h
    · cases h
    · exact h
  | cons pair pairs ih =>
    intro table a h
    apply ih
    show _ ∨ (Function.update table pair.1 (some pair.2) a).isSome = true
    by_cases ha : a = pair.1
    · right
      rw [ha, Function.update_self]
      rfl
    · rw [Function.update_of_ne ha]
      rw [List.map_cons, List.mem_cons, or_assoc] at h
      exact h.resolve_left ha

theorem exists_tableOf {α β : Type} [DecidableEq α] {pairs : List (α × β)} {a : α}
    (h : a ∈ pairs.map Prod.fst) : ∃ b, tableOf pairs a = some b :=
  Option.isSome_iff_exists.mp (exists_tableOf_foldl (Or.inl h))

/-! ## layouts -/

/-- the relation of an authored field to the stored one -/
structure LowersField (model : StateModel) (source : SourceStateId) (state : StateDecl)
    (field : FieldDecl) (lowering : SourceFieldLowering) : Prop where
  authored : lowering.source = ⟨source, field.name⟩
  stored : lowering.storage = ⟨model.storageSourceId source, field.name⟩
  digest : ∀ expanded, lowering.expandedState = some expanded → ∃ expansion index digest,
    state.expansion = some expansion ∧ (digest, index) ∈ expansion.digests.zipIdx ∧
      model.digestState source index digest = .ok expanded

variable {model : StateModel} {source : SourceStateId} {state stored : StateDecl}

theorem lowerStateField_lowers {field : FieldDecl} {lowering : SourceFieldLowering}
    (h : lowerStateField model source state field = .ok lowering) :
    LowersField model source state field lowering := by
  unfold lowerStateField at h
  dsimp only at h
  cases hdigest : digestOf state field with
  | none =>
    rw [hdigest] at h
    cases h
    exact ⟨rfl, rfl, nofun⟩
  | some digest =>
    rw [hdigest] at h
    obtain ⟨expanded, hexpanded, h⟩ := bind_eq_ok.mp h
    rw [← pure_eq_ok.mp h]
    refine ⟨rfl, rfl, fun expanded' h => ?_⟩
    cases h
    have hmem := List.mem_reverse.mp (List.mem_of_find?_eq_some hdigest)
    cases hexpansion : state.expansion with
    | none =>
      rw [hexpansion] at hmem
      cases hmem
    | some expansion =>
      rw [hexpansion] at hmem
      exact ⟨expansion, digest.2, digest.1, rfl, hmem, hexpanded⟩

/-- what the layouts of a state come from -/
structure StateLayoutsOf (model : StateModel) (source : SourceStateId) (state stored : StateDecl)
    (storage : StorageStateLayout) (relation : SourceStorageRelation) : Prop where
  declared : model.stateBySource source = .ok state
  base : model.storageStateBySource source = .ok stored
  storage : storage.fields.map Prod.fst =
    stored.fields.map fun field => ⟨model.storageSourceId source, field.name⟩
  fields : List.Forall₂ (LowersField model source state) stored.fields relation.fields
  identity : relation.isIdentity = state.expansion.isNone

theorem stateLayouts_ok {sourceLayout : SourceStateLayout} {storage : StorageStateLayout}
    {relation : SourceStorageRelation}
    (h : stateLayouts model source = .ok (sourceLayout, storage, relation)) :
    ∃ state stored, StateLayoutsOf model source state stored storage relation := by
  obtain ⟨state, hstate, h⟩ := bind_eq_ok.mp h
  obtain ⟨stored, hstored, h⟩ := bind_eq_ok.mp h
  obtain ⟨storageFields, hstorage, h⟩ := bind_eq_ok.mp h
  obtain ⟨fields, hfields, h⟩ := bind_eq_ok.mp h
  obtain ⟨-, hlayout⟩ := Prod.mk.inj (pure_eq_ok.mp h)
  obtain ⟨rfl, hrelation⟩ := Prod.mk.inj hlayout
  have hlowers : List.Forall₂ (LowersField model source state) stored.fields fields :=
    forall₂_of_mapM hfields fun _ _ _ => lowerStateField_lowers
  have hkeys : storageFields.map Prod.fst =
      stored.fields.map fun field => ⟨model.storageSourceId source, field.name⟩ := by
    rw [← List.zipIdx_map_fst 0 stored.fields, List.map_map]
    refine map_of_mapM_ok hstorage fun field out hout => ?_
    obtain ⟨len, -, hout⟩ := bind_eq_ok.mp hout
    rw [← pure_eq_ok.mp hout]
    rfl
  refine ⟨state, stored, hstate, hstored, hkeys, ?_, ?_⟩
  · rw [← hrelation]
    split_ifs
    · exact hlowers
    · exact hlowers
  · rw [← hrelation]
    cases state.expansion with
    | none => rfl
    | some expansion => rfl


/-- the fields of a layout come from one state, the generated ones before the stored ones -/
def LaidOut (model : StateModel) (target : TargetPhysicalPlan) : Prop :=
  ∃ layout storage generated,
    stateLayouts model target.source = .ok (layout, storage, target.sourceToStorage) ∧
      physicalLayout storage generated = .ok (target.physical, target.storageToPhysical) ∧
      (generated.map (·.id)).Nodup

section
variable {app : CompiledApp}

theorem actorPhysicalLayout_ok {actor : ActorModel} (ha : actor ∈ app.actors)
    {storage : StorageStateLayout} {physical : PhysicalStateLayout}
    {relation : StoragePhysicalRelation}
    (h : actorPhysicalLayout app.toApp app.plan actor.name storage = .ok (physical, relation)) :
    ∃ generated, physicalLayout storage generated = .ok (physical, relation) ∧
      (generated.map (·.id)).Nodup := by
  obtain ⟨generated, hgenerated, h⟩ := bind_eq_ok.mp h
  obtain ⟨inputs, routes, constraints, hinferred⟩ := inferDirectRoutes_inferred app.planned
  exact ⟨generated, h, hinferred.generatedIds_nodup app.suffixes ha hgenerated⟩

theorem concreteTargetPlan_laidOut {id : StaticActorId} (hid : id ∈ staticActorIds model app.toApp)
    {activeActor : DeclId} {activePhysical : PhysicalStateLayout} {target : TargetPhysicalPlan}
    (h : concreteTargetPlan model app.toApp app.plan id activeActor activePhysical = .ok target) :
    LaidOut model target := by
  obtain ⟨source, -, h⟩ := bind_eq_ok.mp h
  obtain ⟨⟨layout, storage, relation⟩, hlayouts, h⟩ := bind_eq_ok.mp h
  cases id with
  | inApp name =>
    obtain ⟨⟨physical, storageToPhysical⟩, hphysical, h⟩ := bind_eq_ok.mp h
    obtain rfl := pure_eq_ok.mp h
    have hname : name ∈ app.actors.map (·.name) := by
      obtain hmem | hmem := List.mem_append.mp hid
      · obtain ⟨actor, ha, hname⟩ := List.mem_map.mp hmem
        exact List.mem_map.mpr ⟨actor, ha, StaticActorId.inApp.inj hname⟩
      · obtain ⟨_, _, hname⟩ := List.mem_map.mp hmem
        cases hname
    obtain ⟨actor, ha, rfl⟩ := List.mem_map.mp hname
    obtain ⟨generated, hphysical, hnodup⟩ := actorPhysicalLayout_ok ha hphysical
    exact ⟨layout, storage, generated, hlayouts, hphysical, hnodup⟩
  | linked name =>
    obtain ⟨⟨physical, storageToPhysical⟩, hphysical, h⟩ := bind_eq_ok.mp h
    obtain rfl := pure_eq_ok.mp h
    exact ⟨layout, storage, [], hlayouts, hphysical, List.nodup_nil⟩

theorem openStateTargetPlan_laidOut {source : SourceStateId} {activePhysical : PhysicalStateLayout}
    {target : TargetPhysicalPlan}
    (h : openStateTargetPlan model source activePhysical = .ok target) : LaidOut model target := by
  obtain ⟨⟨layout, storage, relation⟩, hlayouts, h⟩ := bind_eq_ok.mp h
  obtain ⟨⟨physical, storageToPhysical⟩, hphysical, h⟩ := bind_eq_ok.mp h
  obtain rfl := pure_eq_ok.mp h
  exact ⟨layout, storage, [], hlayouts, hphysical, List.nodup_nil⟩

/-- the plan of a domain is laid out like that of its first variant -/
theorem canonicalDomainPlan_laidOut {id canonical : PhysicalTargetId}
    {variants : List PhysicalTargetId} {activePhysical : PhysicalStateLayout}
    {plans : PhysicalTargetId → Option TargetPhysicalPlan} {target : TargetPhysicalPlan}
    (hplans : ∀ id target, plans id = some target → LaidOut model target)
    (h : canonicalDomainPlan model id variants activePhysical plans = .ok (target, canonical)) :
    LaidOut model target := by
  cases variants with
  | nil => cases h
  | cons firstId rest =>
    obtain ⟨first, hfirst, h⟩ := bind_eq_ok.mp h
    obtain ⟨-, -, h⟩ := bind_eq_ok.mp h
    obtain ⟨rfl, -⟩ := Prod.mk.inj (pure_eq_ok.mp h)
    exact hplans firstId first (okOr_eq_ok.mp hfirst)

theorem planDomain_laidOut {actor : ActorModel} {entry : EntryModel}
    {activePhysical : PhysicalStateLayout} {actorTargets : StaticActorId → Option PhysicalTargetId}
    {tables tables' : DomainTables} {selector : TemplateSelector}
    (hplans : ∀ id target, tables.plans id = some target → LaidOut model target)
    (h : planDomain model actor entry activePhysical actorTargets tables selector = .ok tables') :
    ∀ id target, tables'.plans id = some target → LaidOut model target := by
  obtain ⟨variants, -, h⟩ := bind_eq_ok.mp h
  obtain ⟨state, -, h⟩ := bind_eq_ok.mp h
  obtain ⟨actors, -, h⟩ := bind_eq_ok.mp h
  dsimp only at h
  split_ifs at h with hknown
  · rwa [← pure_eq_ok.mp h]
  · split at h
    · cases h
    · rename_i planned canonical hplanned
      rw [← pure_eq_ok.mp h]
      intro id target htarget
      change Function.update tables.plans _ _ id = _ at htarget
      by_cases hid : id = .actorDomain state actors
      · rw [hid, Function.update_self, Option.some_inj] at htarget
        rw [← htarget]
        exact canonicalDomainPlan_laidOut hplans hplanned
      · rw [Function.update_of_ne hid] at htarget
        exact hplans id target htarget

/-- **Every target that a contract can write is laid out.** -/
theorem contractStateLowering_laidOut {activeActor : ActorModel} {lowering : ContractStateLowering}
    (h : contractStateLowering model app.toApp app.plan activeActor = .ok lowering)
    {id : PhysicalTargetId} {target : TargetPhysicalPlan}
    (htarget : lowering.targetPhysical id = some target) : LaidOut model target := by
  obtain ⟨activeSource, -, h⟩ := bind_eq_ok.mp h
  obtain ⟨⟨source, storage, relation⟩, -, h⟩ := bind_eq_ok.mp h
  obtain ⟨⟨physical, storageToPhysical⟩, -, h⟩ := bind_eq_ok.mp h
  obtain ⟨representations, -, h⟩ := bind_eq_ok.mp h
  obtain ⟨actors, hactors, h⟩ := bind_eq_ok.mp h
  obtain ⟨states, -, h⟩ := bind_eq_ok.mp h
  obtain ⟨openStates, hopen, h⟩ := bind_eq_ok.mp h
  obtain ⟨tables, htables, h⟩ := bind_eq_ok.mp h
  rw [← pure_eq_ok.mp h] at htarget
  refine foldlM_ok (fun _ tables => ∀ id target, tables.plans id = some target →
    LaidOut model target) htables ?_ (fun _ _ _ _ _ hplans hstep => planDomain_laidOut hplans hstep)
    id target htarget
  intro id target hplan
  obtain ⟨planned, hmem, heq⟩ := List.mem_map.mp (tableOf_some hplan)
  obtain ⟨-, rfl⟩ := Prod.mk.inj heq
  obtain hmem | hmem := List.mem_append.mp hmem
  · obtain ⟨actor, hactor, hok⟩ := mem_of_mapM_ok hactors hmem
    exact concreteTargetPlan_laidOut hactor hok
  · obtain ⟨state, -, hok⟩ := mem_of_mapM_ok hopen hmem
    exact openStateTargetPlan_laidOut hok

theorem contractStateLowering_representation {activeActor : ActorModel}
    {lowering : ContractStateLowering}
    (h : contractStateLowering model app.toApp app.plan activeActor = .ok lowering)
    (hsource : source ∈ model.stateSources) :
    ∃ representation layout storage, lowering.sourceRepresentations source = some representation ∧
      stateLayouts model source = .ok (layout, storage, representation.sourceToStorage) := by
  obtain ⟨activeSource, -, h⟩ := bind_eq_ok.mp h
  obtain ⟨⟨_, _, relation⟩, -, h⟩ := bind_eq_ok.mp h
  obtain ⟨⟨physical, storageToPhysical⟩, -, h⟩ := bind_eq_ok.mp h
  obtain ⟨representations, hrepresentations, h⟩ := bind_eq_ok.mp h
  obtain ⟨actors, -, h⟩ := bind_eq_ok.mp h
  obtain ⟨states, -, h⟩ := bind_eq_ok.mp h
  obtain ⟨openStates, -, h⟩ := bind_eq_ok.mp h
  obtain ⟨tables, -, h⟩ := bind_eq_ok.mp h
  rw [← pure_eq_ok.mp h]
  obtain ⟨planned, hmem, hplanned⟩ := mapM_ok_of_mem hrepresentations hsource
  have hkey : planned.1 = source := by
    obtain ⟨_, -, hplanned⟩ := bind_eq_ok.mp hplanned
    rw [← pure_eq_ok.mp hplanned]
  obtain ⟨representation, hrepresentation⟩ :=
    exists_tableOf (List.mem_map.mpr ⟨planned, hmem, hkey⟩)
  obtain ⟨state, -, hplan⟩ := mem_of_mapM_ok hrepresentations (tableOf_some hrepresentation)
  obtain ⟨⟨layout, storage, relation'⟩, hlayouts, hplan⟩ := bind_eq_ok.mp hplan
  obtain ⟨rfl, rfl⟩ := Prod.mk.inj (pure_eq_ok.mp hplan)
  exact ⟨_, layout, storage, hrepresentation, hlayouts⟩

end

/-! ## output targets -/

section
variable {plan : CompilerRoutePlan} {actor : ActorModel} {lowering : ContractStateLowering}

theorem generatedSources_ok {layout : PhysicalStateLayout} {held : List GeneratedFieldId}
    {ids : List GeneratedFieldId} : ∀ {families left : List String}
    {sources : List (GeneratedFieldId × GeneratedFieldSource)},
    generatedSources plan actor layout held families ids = .ok (sources, left) →
      sources.map Prod.fst = ids := by
  induction ids with
  | nil =>
    intro families left sources h
    cases h
    rfl
  | cons id ids ih =>
    intro families left sources h
    obtain ⟨-, h⟩ := check_eq_ok.mp h
    obtain ⟨⟨fieldSource, families'⟩, -, h⟩ := bind_eq_ok.mp h
    obtain ⟨⟨rest, left'⟩, hrest, h⟩ := bind_eq_ok.mp h
    obtain ⟨rfl, -⟩ := Prod.mk.inj (pure_eq_ok.mp h)
    rw [List.map_cons, ih hrest]

/-- the plan of an output target is one of the lowering, with a source for every generated field -/
theorem outputTargetPlan_ok {output : OutputPhysicalTypePlan}
    {transition : CompilerRouteTransition} {target : OutputTargetPlan}
    (h : outputTargetPlan plan actor lowering output transition = .ok target) :
    (∃ id, lowering.targetPhysical id = some target.physical) ∧
      target.generatedFields.map Prod.fst = target.physical.storageToPhysical.generatedFields := by
  obtain ⟨physical, hphysical, h⟩ := bind_eq_ok.mp h
  obtain ⟨⟨generated, left⟩, hgenerated, h⟩ := bind_eq_ok.mp h
  cases left with
  | cons family left => cases h
  | nil =>
    obtain rfl := pure_eq_ok.mp h
    exact ⟨⟨output.target, okOr_eq_ok.mp hphysical⟩, generatedSources_ok hgenerated⟩

/-- every target of an actor is planned by `outputTargetPlan` -/
theorem actorOutputPlan_targets {app : App} {outputs : ActorOutputPlan}
    (h : actorOutputPlan model app plan actor lowering = .ok outputs) {id : PhysicalTargetId}
    {target : OutputTargetPlan} (htarget : outputs.target id = .ok target) :
    ∃ output transition, outputTargetPlan plan actor lowering output transition = .ok target := by
  obtain ⟨actors, hactors, h⟩ := bind_eq_ok.mp h
  obtain ⟨openStates, hopen, h⟩ := bind_eq_ok.mp h
  obtain ⟨selectors, hselectors, h⟩ := bind_eq_ok.mp h
  have htable := okOr_eq_ok.mp htarget
  rw [← pure_eq_ok.mp h] at htable
  obtain ⟨planned, hmem, heq⟩ := List.mem_map.mp (tableOf_some htable)
  obtain ⟨-, rfl⟩ := Prod.mk.inj heq
  obtain hmem | hmem := List.mem_append.mp hmem
  · obtain hmem | hmem := List.mem_append.mp hmem
    · obtain ⟨pair, hpair, rfl⟩ := List.mem_map.mp hmem
      obtain ⟨identity, -, hok⟩ := mem_of_mapM_ok hactors hpair
      obtain ⟨transition, -, hok⟩ := bind_eq_ok.mp hok
      obtain ⟨output, -, hok⟩ := bind_eq_ok.mp hok
      obtain ⟨target, htarget, hok⟩ := bind_eq_ok.mp hok
      rw [← pure_eq_ok.mp hok]
      exact ⟨output, transition, htarget⟩
    · obtain ⟨pair, hpair, rfl⟩ := List.mem_map.mp hmem
      obtain ⟨state, -, hok⟩ := mem_of_mapM_ok hopen hpair
      obtain ⟨target, htarget, hok⟩ := bind_eq_ok.mp hok
      rw [← pure_eq_ok.mp hok]
      exact ⟨state.2, ⟨[], []⟩, htarget⟩
  · obtain ⟨pair, hpair, rfl⟩ := List.mem_map.mp hmem
    obtain ⟨selector, -, hok⟩ := mem_of_mapM_ok hselectors hpair
    obtain ⟨state, -, hok⟩ := bind_eq_ok.mp hok
    obtain ⟨output, -, hok⟩ := bind_eq_ok.mp hok
    obtain ⟨transition, -, hok⟩ := bind_eq_ok.mp hok
    obtain ⟨target, htarget, hok⟩ := bind_eq_ok.mp hok
    rw [← pure_eq_ok.mp hok]
    exact ⟨output, transition, htarget⟩

end

end Argent.Model
