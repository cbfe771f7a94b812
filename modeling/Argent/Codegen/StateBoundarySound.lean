import Argent.Codegen.GroupClosed
import Argent.Codegen.StateBoundary
import Argent.Model.StateLayoutSound

/-!
# Physical states are complete

The struct literal of an output has every field of the physical layout, in the order of the layout:
the stored fields are those of the authored value or their digests, the generated ones are planned.

* `physicalLayout_ok`        the fields of a layout, and what the relation says of them;
* `takeFields_perm`          a layout takes the values of exactly its fields;
* `storedField_some`         every authored field has a stored value;
* `FieldValue`               what the value of a physical field stands for;
* `materializeAuthoredAst_complete`    **a physical state has each of its fields once**.
-/

set_option linter.unusedSectionVars false

namespace Argent.Codegen
open Argent.Model Argent.Sil Argent.Fallible

/-! ## layouts -/

/-- the generated fields of a layout stand before the stored ones, under their storage names -/
structure PhysicalLayoutOf (storage : StorageStateLayout) (generated : List GeneratedField)
    (physical : PhysicalStateLayout) (relation : StoragePhysicalRelation) : Prop where
  ids : physical.fields.map (·.id) = generated.map (fun field => .generated field.id) ++
    storage.fields.map fun field => .storage field.1
  identity : relation.isIdentity = true →
    physical.fields.map (fun field => (field.id, field.silName)) =
      storage.fields.map fun field => (.storage field.1, field.1.field)
  generatedFields : relation.generatedFields = generated.map (·.id)
  storageToPhysical :
    relation.storageToPhysical = storage.fields.map fun field => (field.1, .storage field.1)

variable {storage : StorageStateLayout} {generated : List GeneratedField}
  {physical : PhysicalStateLayout} {relation : StoragePhysicalRelation}

theorem physicalLayout_ok (h : physicalLayout storage generated = .ok (physical, relation)) :
    PhysicalLayoutOf storage generated physical relation := by
  obtain ⟨fields, hfields, h⟩ := bind_eq_ok.mp h
  obtain ⟨rfl, rfl⟩ := Prod.mk.inj (pure_eq_ok.mp h)
  have hids : fields.map (·.id) = generated.map fun field => .generated field.id := by
    refine map_of_mapM_ok hfields fun field out hout => ?_
    obtain ⟨len, -, hout⟩ := bind_eq_ok.mp hout
    rw [← pure_eq_ok.mp hout]
  refine ⟨?_, fun hidentity => ?_, ?_, ?_⟩
  · rw [List.map_append, hids, List.map_map]
    rfl
  · cases generated with
    | nil =>
      obtain rfl := pure_eq_ok.mp hfields
      show ([] ++ _ : List LayoutField).map (fun field => (field.id, field.silName)) = _
      rw [List.nil_append, List.map_map]
      rfl
    | cons field generated => cases hidentity
  · cases generated with
    | nil => rfl
    | cons field generated => rfl
  · cases generated with
    | nil => rfl
    | cons field generated => rfl

theorem PhysicalLayoutOf.physicalField (h : PhysicalLayoutOf storage generated physical relation)
    {id : StorageFieldId} (hid : id ∈ storage.fields.map Prod.fst) :
    relation.physicalField id = some (.storage id) := by
  unfold StoragePhysicalRelation.physicalField
  rw [h.storageToPhysical]
  obtain ⟨field, hfield, rfl⟩ := List.mem_map.mp hid
  have hfound : (storage.fields.map fun field => (field.1, PhysicalFieldId.storage field.1)).find?
      (fun pair => decide (pair.1 = field.1)) = some (field.1, .storage field.1) := by
    cases hfind : (storage.fields.map fun field => (field.1, PhysicalFieldId.storage field.1)).find?
        fun pair => decide (pair.1 = field.1) with
    | none =>
      exact absurd (decide_eq_true rfl)
        (List.find?_eq_none.mp hfind _ (List.mem_map.mpr ⟨field, hfield, rfl⟩))
    | some pair =>
      obtain ⟨other, -, rfl⟩ := List.mem_map.mp (List.mem_of_find?_eq_some hfind)
      have hother := of_decide_eq_true (List.find?_some
        (p := fun pair : StorageFieldId × PhysicalFieldId => decide (pair.1 = field.1)) hfind)
      replace hother : other.1 = field.1 := hother
      rw [hother]
  rw [hfound]
  rfl

/-! ## tables of values -/

section
variable {α β : Type}

/-- values of distinct fields are collected in their order -/
theorem foldlM_insertField
    {step : List (PhysicalFieldId × StateExpr α) → β → Option (List (PhysicalFieldId × StateExpr α))}
    (key : β → PhysicalFieldId) (R : β → StateExpr α → Prop) {items : List β} :
    ∀ {values : List (PhysicalFieldId × StateExpr α)},
    (∀ item ∈ items, ∃ value, R item value ∧
      ∀ values, step values item = insertField values (key item) value) →
    (values.map Prod.fst ++ items.map key).Nodup →
      ∃ added, items.foldlM step values = some (values ++ added) ∧
        List.Forall₂ (fun item pair => pair.1 = key item ∧ R item pair.2) items added := by
  induction items with
  | nil => exact fun _ _ => ⟨[], by rw [List.append_nil]; rfl, .nil⟩
  | cons item items ih =>
    intro values hstep hnodup
    obtain ⟨value, hvalue, hinsert⟩ := hstep item List.mem_cons_self
    have hfresh : values.any (fun pair => decide (pair.1 = key item)) = false := by
      rw [List.any_eq_false]
      intro pair hpair heq
      obtain ⟨-, -, hdisjoint⟩ := List.nodup_append.mp hnodup
      exact hdisjoint pair.1 (List.mem_map_of_mem hpair) (key item) List.mem_cons_self
        (of_decide_eq_true heq)
    have hfirst : step values item = some (values ++ [(key item, value)]) := by
      rw [hinsert, insertField, hfresh]
      rfl
    have hrest : ((values ++ [(key item, value)]).map Prod.fst ++ items.map key).Nodup := by
      rw [List.map_append, List.append_assoc]
      exact hnodup
    obtain ⟨added, hadded, hall⟩ :=
      ih (fun other hother => hstep other (List.mem_cons_of_mem _ hother)) hrest
    refine ⟨(key item, value) :: added, ?_, .cons ⟨rfl, hvalue⟩ hall⟩
    rw [List.foldlM_cons, hfirst, Option.bind_eq_bind, Option.bind_some, hadded, List.append_assoc]
    rfl

theorem removeField_some {id : PhysicalFieldId} : ∀ {values : List (PhysicalFieldId × StateExpr α)},
    id ∈ values.map Prod.fst →
      ∃ value left, removeField id values = some (value, left) ∧ values.Perm ((id, value) :: left)
  | [], h => nomatch h
  | pair :: values, h => by
    unfold removeField
    split_ifs with hid
    · exact ⟨pair.2, values, rfl, by rw [← hid]⟩
    · obtain rfl | hmem := List.mem_cons.mp h
      · exact absurd rfl hid
      · obtain ⟨value, left, hleft, hperm⟩ := removeField_some hmem
        refine ⟨value, pair :: left, ?_, ?_⟩
        · rw [hleft]
          rfl
        · exact (hperm.cons pair).trans (.swap _ _ _)

/-- a layout takes the values of exactly its fields -/
theorem takeFields_perm {fields : List LayoutField} :
    ∀ {values : List (PhysicalFieldId × StateExpr α)},
    (fields.map (·.id)).Perm (values.map Prod.fst) →
      ∃ taken, takeFields fields values = some (taken, []) ∧
        List.Forall₂ (fun field out => out.1 = field.silName ∧ (field.id, out.2) ∈ values)
          fields taken := by
  induction fields with
  | nil =>
    intro values h
    obtain rfl := List.map_eq_nil_iff.mp h.nil_eq.symm
    exact ⟨[], rfl, .nil⟩
  | cons field fields ih =>
    intro values h
    obtain ⟨value, left, hleft, hperm⟩ := removeField_some (h.subset List.mem_cons_self)
    have hrest : (fields.map (·.id)).Perm (left.map Prod.fst) :=
      (h.trans (hperm.map Prod.fst)).cons_inv
    obtain ⟨taken, htaken, hall⟩ := ih hrest
    refine ⟨(field.silName, value) :: taken, ?_, .cons ⟨rfl, ?_⟩ ?_⟩
    · rw [takeFields, hleft, Option.bind_eq_bind, Option.bind_some]
      dsimp only
      rw [htaken]
      rfl
    · exact hperm.symm.subset List.mem_cons_self
    · refine hall.imp fun other out hout => ⟨hout.1, ?_⟩
      exact hperm.symm.subset (List.mem_cons_of_mem _ hout.2)

end

/-! ## stored values -/

theorem exists_mapM_some {α β : Type} {f : α → Option β} {l : List α}
    (h : ∀ a ∈ l, ∃ b, f a = some b) : ∃ out, l.mapM f = some out := by
  induction l with
  | nil => exact ⟨[], rfl⟩
  | cons a l ih =>
    obtain ⟨b, hb⟩ := h a List.mem_cons_self
    obtain ⟨out, hout⟩ := ih fun a ha => h a (List.mem_cons_of_mem _ ha)
    refine ⟨b :: out, ?_⟩
    rw [List.mapM_cons, hb, hout]
    rfl

theorem exists_bind_some {α β : Type} {x : Option α} {f : α → Option β}
    (h : ∃ a, x = some a ∧ ∃ b, f a = some b) : ∃ b, (x >>= f) = some b := by
  obtain ⟨a, rfl, hb⟩ := h
  exact hb

theorem exists_bind_literal {α β γ : Type} {x : Option α} {f : α → Option β} {g : γ → β}
    {P : γ → Prop} (h : ∃ a, x = some a ∧ ∃ c, f a = some (g c) ∧ P c) :
    ∃ c, (x >>= f) = some (g c) ∧ P c := by
  obtain ⟨a, rfl, hc⟩ := h
  exact hc

section
variable {α : Type} {model : StateModel} {lowering : ContractStateLowering}

theorem packedFieldAst_some {ty : TypeRef} {len : Nat} (h : packedFieldLen ty = .ok len)
    (value : StateExpr α) : ∃ ast, packedFieldAst ty value = some ast := by
  unfold packedFieldLen at h
  unfold packedFieldAst
  split_ifs at h ⊢ with hactor
  · exact ⟨_, rfl⟩
  · split at h
    all_goals first
      | rename_i hname harray
        rw [hname, harray]
        exact ⟨_, rfl⟩
      | cases h

/-- a state that a digest can stand for -/
structure MemoryState (model : StateModel) (source : SourceStateId) (state : StateDecl) : Prop where
  declared : model.stateBySource source = .ok state
  plain : state.expansion = none
  packed : ∀ field ∈ state.fields, ∃ len, packedFieldLen field.ty = .ok len

theorem MemoryState.storageStateBySource {source : SourceStateId} {state : StateDecl}
    (h : MemoryState model source state) : model.storageStateBySource source = .ok state := by
  unfold StateModel.storageStateBySource StateModel.storageSourceId
  rw [h.declared]
  dsimp only
  rw [h.plain]
  exact h.declared

theorem memoryState_of_digest {source expanded : SourceStateId} {state : StateDecl}
    {expansion : StateExpansionDecl} {digest : StateDigestExpansionDecl} {index : Nat}
    (hvalid : ∀ source ∈ model.stateSources, validateStateExpansion model source = .ok ⟨⟩)
    (hstate : model.stateBySource source = .ok state) (hexpansion : state.expansion = some expansion)
    (hdigest : (digest, index) ∈ expansion.digests.zipIdx)
    (hexpanded : model.digestState source index digest = .ok expanded) :
    ∃ memory, MemoryState model expanded memory := by
  have h := hvalid source (model.listed source state hstate)
  unfold validateStateExpansion at h
  obtain ⟨_, hstate', h⟩ := bind_eq_ok.mp h
  rw [hstate] at hstate'
  obtain rfl := Except.ok.inj hstate'
  obtain ⟨-, h⟩ := check_eq_ok.mp h
  rw [hexpansion] at h
  obtain ⟨-, h⟩ := check_eq_ok.mp h
  obtain ⟨-, h⟩ := check_eq_ok.mp h
  obtain ⟨base, -, h⟩ := bind_eq_ok.mp h
  obtain ⟨-, h⟩ := check_eq_ok.mp h
  have hone := forM_ok_of_mem h hdigest
  unfold validateDigest at hone
  obtain ⟨-, hone⟩ := check_eq_ok.mp hone
  obtain ⟨field, -, hone⟩ := bind_eq_ok.mp hone
  obtain ⟨-, hone⟩ := check_eq_ok.mp hone
  obtain ⟨memory, hmemory, hone⟩ := bind_eq_ok.mp hone
  obtain ⟨hfields, hone⟩ := check_eq_ok.mp hone
  rw [mapError_eq_ok, hexpanded] at hmemory
  replace hmemory : model.stateBySource expanded = .ok memory := hmemory
  refine ⟨memory, hmemory, ?_, fun field hfield => ?_⟩
  · -- an expansion would leave no fields
    have h := hvalid expanded (model.listed expanded memory hmemory)
    unfold validateStateExpansion at h
    rw [hmemory] at h
    obtain ⟨-, h⟩ := check_eq_ok.mp h
    cases hplain : memory.expansion with
    | none => rfl
    | some expansion =>
      rw [hplain] at h
      obtain ⟨hempty, -⟩ := check_eq_ok.mp h
      rw [rejectIf_eq_ok] at hempty hfields
      cases hisEmpty : memory.fields.isEmpty with
      | true => exact absurd hisEmpty hfields
      | false => exact absurd (by rw [hisEmpty]; rfl) hempty
  · have hpacked := forM_ok_of_mem hone hfield
    cases hlen : packedFieldLen field.ty with
    | ok len => exact ⟨len, rfl⟩
    | error error =>
      rw [hlen] at hpacked
      cases hpacked

/-- a plain state that is planned has a digest -/
theorem authoredStatePayloadDigestAst_some {source : SourceStateId} {state : StateDecl}
    (h : MemoryState model source state)
    (hplanned : ∃ representation layout storage,
      lowering.sourceRepresentations source = some representation ∧
        stateLayouts model source = .ok (layout, storage, representation.sourceToStorage))
    (depth : Nat) (value : StateExpr α) :
    ∃ ast, authoredStatePayloadDigestAst model lowering (depth + 1) source value = some ast := by
  obtain ⟨representation, layout, storage, hrepresentation, hlayouts⟩ := hplanned
  obtain ⟨state', stored, hof⟩ := stateLayouts_ok hlayouts
  obtain rfl := Except.ok.inj (h.declared.symm.trans hof.declared)
  obtain rfl := Except.ok.inj (h.storageStateBySource.symm.trans hof.base)
  unfold authoredStatePayloadDigestAst
  refine exists_bind_some ⟨representation, hrepresentation, ?_⟩
  refine exists_bind_some ⟨state, by rw [h.storageStateBySource]; rfl, ?_⟩
  refine exists_bind_some ((exists_mapM_some fun field hfield => ?_).imp fun parts hparts =>
    ⟨hparts, _, rfl⟩)
  -- a field of a plain state is stored as it is
  obtain ⟨declared, hdeclared, hlowers⟩ := mem_of_forall₂_left hof.fields.flip hfield
  have hidentity : field.expandedState = none := by
    cases hexpanded : field.expandedState with
    | none => rfl
    | some expanded =>
      obtain ⟨expansion, _, _, hexpansion, -⟩ := hlowers.digest expanded hexpanded
      rw [h.plain] at hexpansion
      cases hexpansion
  obtain ⟨candidate, hcandidate⟩ : ∃ candidate, state.fields.find? (fun candidate =>
      decide (candidate.name = field.storage.field)) = some candidate := by
    rw [← Option.isSome_iff_exists, List.find?_isSome]
    exact ⟨declared, hdeclared, decide_eq_true (by rw [hlowers.stored])⟩
  obtain ⟨len, hlen⟩ := h.packed candidate (List.mem_of_find?_eq_some hcandidate)
  rw [hcandidate, hidentity]
  exact packedFieldAst_some hlen _

/-- every authored field has a stored value -/
theorem storedField_some
    (hvalid : ∀ source ∈ model.stateSources, validateStateExpansion model source = .ok ⟨⟩)
    (hplanned : ∀ source ∈ model.stateSources, ∃ representation layout storage,
      lowering.sourceRepresentations source = some representation ∧
        stateLayouts model source = .ok (layout, storage, representation.sourceToStorage))
    {source : SourceStateId} {state : StateDecl} {declared : FieldDecl} {field : SourceFieldLowering}
    (hstate : model.stateBySource source = .ok state)
    (hlowers : LowersField model source state declared field) (depth : Nat)
    (authored : StateExpr α) :
    ∃ value, OutputStateTarget.storedField model lowering (depth + 1) authored field = some value := by
  unfold OutputStateTarget.storedField
  cases hexpanded : field.expandedState with
  | none => exact ⟨_, rfl⟩
  | some expanded =>
    obtain ⟨expansion, index, digest, hexpansion, hdigest, hok⟩ := hlowers.digest expanded hexpanded
    obtain ⟨memory, hmemory⟩ := memoryState_of_digest hvalid hstate hexpansion hdigest hok
    exact authoredStatePayloadDigestAst_some hmemory
      (hplanned expanded (model.listed expanded memory hmemory.declared)) depth _

end

/-! ## physical states -/

section
variable {α : Type} (model : StateModel) (app : App) (lowering : ContractStateLowering)
  (plan : OutputTargetPlan) (depth : Nat) (authored : StateExpr α)

/-- What the value of a physical field stands for: the authored field that is stored in it, or the
digest of the state of that field, or the value that is planned for it. -/
inductive FieldValue : PhysicalFieldId → StateExpr α → Prop where
  | stored {field : SourceFieldLowering} {value : StateExpr α}
      (hfield : field ∈ plan.physical.sourceToStorage.fields)
      (hvalue : OutputStateTarget.storedField model lowering depth authored field = some value) :
      FieldValue (.storage field.storage) value
  | generated {id : GeneratedFieldId} {source : GeneratedFieldSource} {field : LayoutField}
      {expr : SilExpr} (hsource : (id, source) ∈ plan.generatedFields)
      (hfield : plan.physical.physical.field (.generated id) = some field)
      (hexpr : generatedFieldExpr app (layoutGeneratedField field id) source = .ok expr) :
      FieldValue (.generated id) (.generated expr)

/-- a physical field that is an authored field under its own name -/
def AuthoredAsIs (physical : LayoutField) (field : SourceFieldLowering) : Prop :=
  physical.id = .storage field.storage ∧ physical.silName = field.source.field ∧
    field.expandedState = none

variable {model app lowering plan}

theorem planGeneratedFields_keys {asts : List (GeneratedFieldId × SilExpr)}
    (h : planGeneratedFields app plan = .ok asts) :
    asts.map Prod.fst = plan.generatedFields.map Prod.fst := by
  refine map_of_mapM_ok h fun generated ast hast => ?_
  obtain ⟨field, -, hast⟩ := bind_eq_ok.mp hast
  obtain ⟨expr, -, hast⟩ := bind_eq_ok.mp hast
  rw [← pure_eq_ok.mp hast]

theorem planGeneratedFields_value {asts : List (GeneratedFieldId × SilExpr)}
    (h : planGeneratedFields app plan = .ok asts) {ast : GeneratedFieldId × SilExpr}
    (hmem : ast ∈ asts) :
    FieldValue model app lowering plan depth authored (.generated ast.1) (.generated ast.2) := by
  obtain ⟨generated, hgenerated, hast⟩ := mem_of_mapM_ok h hmem
  obtain ⟨field, hfield, hast⟩ := bind_eq_ok.mp hast
  obtain ⟨expr, hexpr, hast⟩ := bind_eq_ok.mp hast
  rw [← pure_eq_ok.mp hast]
  exact .generated hgenerated (okOr_eq_ok.mp hfield) hexpr

theorem outputStateTarget_ok {target : OutputStateTarget}
    (h : outputStateTarget model app lowering plan = .ok target) :
    target.physical = plan.physical ∧ planGeneratedFields app plan = .ok target.generatedFieldAsts := by
  obtain ⟨representation, -, h⟩ := bind_eq_ok.mp h
  obtain ⟨authoredSilType, -, h⟩ := bind_eq_ok.mp h
  obtain ⟨named, -, h⟩ := bind_eq_ok.mp h
  obtain ⟨asts, hasts, h⟩ := bind_eq_ok.mp h
  obtain ⟨silType, -, h⟩ := bind_eq_ok.mp h
  rw [← pure_eq_ok.mp h]
  exact ⟨rfl, hasts⟩

theorem map_eq_of_forall₂ {β γ δ : Type} {R : β → γ → Prop} {f : γ → δ} {g : β → δ} {l : List β}
    {m : List γ} (h : List.Forall₂ R l m) (hR : ∀ a b, R a b → f b = g a) : m.map f = l.map g := by
  induction h with
  | nil => rfl
  | cons hab _ ih => rw [List.map_cons, List.map_cons, hR _ _ hab, ih]

theorem forall₂_of_map_eq {β γ δ : Type} {f : β → δ} {g : γ → δ} {l : List β} {m : List γ}
    (h : l.map f = m.map g) : List.Forall₂ (fun a b => f a = g b) l m := by
  rwa [← List.forall₂_eq_eq_eq, List.forall₂_map_left_iff, List.forall₂_map_right_iff] at h

theorem storedKeys {state stored : StateDecl} {storage : StorageStateLayout} {source : SourceStateId}
    {relation : SourceStorageRelation}
    (h : StateLayoutsOf model source state stored storage relation) :
    relation.fields.map (fun field => PhysicalFieldId.storage field.storage) =
      storage.fields.map fun field => .storage field.1 := by
  have hlowered : relation.fields.map (·.storage) =
      stored.fields.map fun field => ⟨model.storageSourceId source, field.name⟩ :=
    map_eq_of_forall₂ h.fields fun _ _ hlowers => hlowers.stored
  rw [← h.storage] at hlowered
  have hmap := congrArg (List.map PhysicalFieldId.storage) hlowered
  rwa [List.map_map, List.map_map] at hmap

/-- no two fields of a layout have one identity, where no two stored fields have one name -/
theorem layoutIds_nodup {state stored : StateDecl} {storage : StorageStateLayout}
    {source : SourceStateId} {relation : SourceStorageRelation} {generated : List GeneratedField}
    {physical : PhysicalStateLayout} {storageToPhysical : StoragePhysicalRelation}
    (h : StateLayoutsOf model source state stored storage relation)
    (hphysical : PhysicalLayoutOf storage generated physical storageToPhysical)
    (hgenerated : (generated.map (·.id)).Nodup) (hnames : (stored.fields.map (·.name)).Nodup) :
    (physical.fields.map (·.id)).Nodup := by
  have hstored : (storage.fields.map fun field => PhysicalFieldId.storage field.1).Nodup := by
    have hmap := congrArg (List.map PhysicalFieldId.storage) h.storage
    rw [List.map_map, List.map_map] at hmap
    show (storage.fields.map (PhysicalFieldId.storage ∘ Prod.fst)).Nodup
    rw [hmap]
    refine List.Nodup.of_map (fun id => match id with
      | PhysicalFieldId.storage id => id.field
      | .generated _ => "") ?_
    rw [List.map_map]
    exact hnames
  have hids : (generated.map fun field => PhysicalFieldId.generated field.id).Nodup := by
    have hmap := hgenerated.map (f := PhysicalFieldId.generated) fun _ _ h =>
      PhysicalFieldId.generated.inj h
    rwa [List.map_map] at hmap
  rw [hphysical.ids]
  refine List.nodup_append.mpr ⟨hids, hstored, fun id hid id' hid' heq => ?_⟩
  obtain ⟨_, -, rfl⟩ := List.mem_map.mp hid
  obtain ⟨_, -, rfl⟩ := List.mem_map.mp hid'
  cases heq

/-- where both relations are the identity, the physical fields are the authored ones -/
theorem authoredAsIs {state stored : StateDecl} {storage : StorageStateLayout}
    {source : SourceStateId} {relation : SourceStorageRelation} {generated : List GeneratedField}
    {physical : PhysicalStateLayout} {storageToPhysical : StoragePhysicalRelation}
    (h : StateLayoutsOf model source state stored storage relation)
    (hphysical : PhysicalLayoutOf storage generated physical storageToPhysical)
    (hsource : relation.isIdentity = true) (hstorage : storageToPhysical.isIdentity = true) :
    List.Forall₂ AuthoredAsIs physical.fields relation.fields := by
  have hexpansion : state.expansion = none := by
    rw [h.identity] at hsource
    exact Option.isNone_iff_eq_none.mp hsource
  have hmap := congrArg (List.map fun id : StorageFieldId => (PhysicalFieldId.storage id, id.field))
    h.storage
  rw [List.map_map, List.map_map] at hmap
  have hsame := forall₂_of_map_eq ((hphysical.identity hstorage).trans hmap)
  refine forall₂_beside hsame.flip h.fields fun declared _ field lowered hfield hlowers => ?_
  obtain ⟨hid, hname⟩ := Prod.mk.inj hfield
  refine ⟨?_, ?_, ?_⟩
  · rw [hid, hlowers.stored]
  · rw [hname, hlowers.authored]
  · cases hexpanded : lowered.expandedState with
    | none => rfl
    | some expanded =>
      obtain ⟨_, _, _, hdigest, -⟩ := hlowers.digest expanded hexpanded
      rw [hexpansion] at hdigest
      cases hdigest

/-- **A physical state has each of its fields once**, in the order of the layout, where no two
stored fields have one name: the value of a stored field is the authored field related to it or the
digest of its state, that of a generated field is the planned one.  Where both relations are the
identity and the types agree, the authored value is itself the physical one.  The states are valid: the
app's own by this build, and linked ones by the builds of their apps. -/
theorem materializeAuthoredAst_complete {app : CompiledApp} {actor : ActorModel}
    {outputs : ActorOutputPlan} {id : PhysicalTargetId} {target : OutputStateTarget}
    (hvalid : ∀ source ∈ model.stateSources, validateStateExpansion model source = .ok ⟨⟩)
    (hlowering : contractStateLowering model app.toApp app.plan actor = .ok lowering)
    (houtputs : actorOutputPlan model app.toApp app.plan actor lowering = .ok outputs)
    (hplan : outputs.target id = .ok plan)
    (htarget : outputStateTarget model app.toApp lowering plan = .ok target)
    (hnames : ∀ stored, model.storageStateBySource plan.physical.source = .ok stored →
      (stored.fields.map (·.name)).Nodup) :
    (plan.physical.physical.fields.map (·.id)).Nodup ∧
    (target.isUnwrappedAuthoredValue = true →
      target.materializeAuthoredAst model lowering (depth + 1) authored = some authored ∧
        List.Forall₂ AuthoredAsIs plan.physical.physical.fields
          plan.physical.sourceToStorage.fields) ∧
    (target.isUnwrappedAuthoredValue = false → ∃ fields,
      target.materializeAuthoredAst model lowering (depth + 1) authored =
        some (.structLiteral target.silType fields) ∧
      List.Forall₂ (fun field value => value.1 = field.silName ∧
          FieldValue model app.toApp lowering plan (depth + 1) authored field.id value.2)
        plan.physical.physical.fields fields) := by
  obtain ⟨output, transition, houtput⟩ := actorOutputPlan_targets houtputs hplan
  obtain ⟨⟨_, hlowered⟩, hsources⟩ := outputTargetPlan_ok houtput
  obtain ⟨layout, storage, generated, hlayouts, hlayout, hgenerated⟩ :=
    contractStateLowering_laidOut hlowering hlowered
  obtain ⟨state, stored, hof⟩ := stateLayouts_ok hlayouts
  have hphysical := physicalLayout_ok hlayout
  have hnodup := layoutIds_nodup hof hphysical hgenerated (hnames stored hof.base)
  obtain ⟨heq, hasts⟩ := outputStateTarget_ok htarget
  refine ⟨hnodup, fun hunwrapped => ?_, fun hwrapped => ?_⟩
  · refine ⟨if_pos hunwrapped, ?_⟩
    unfold OutputStateTarget.isUnwrappedAuthoredValue at hunwrapped
    rw [heq, Bool.and_eq_true, Bool.and_eq_true] at hunwrapped
    exact authoredAsIs hof hphysical hunwrapped.1.1 hunwrapped.1.2
  · have hgeneratedKeys : (target.generatedFieldAsts.map fun ast => PhysicalFieldId.generated ast.1) =
        generated.map fun field => .generated field.id := by
      have hids := ((planGeneratedFields_keys hasts).trans hsources).trans hphysical.generatedFields
      have hmap := congrArg (List.map PhysicalFieldId.generated) hids
      rw [List.map_map, List.map_map] at hmap
      exact hmap
    have hstoredKeys := storedKeys hof
    rw [hphysical.ids] at hnodup
    obtain ⟨hgeneratedNodup, hstoredNodup, hdisjoint⟩ := List.nodup_append.mp hnodup
    have hrepresented := fun source (hsource : source ∈ model.stateSources) =>
      contractStateLowering_representation hlowering hsource
    unfold OutputStateTarget.materializeAuthoredAst
    rw [if_neg (by rw [hwrapped]; exact Bool.false_ne_true), heq]
    -- the stored fields, in the order of the authored ones
    refine exists_bind_literal (Exists.elim (foldlM_insertField
      (fun field => PhysicalFieldId.storage field.storage)
      (fun field value =>
        FieldValue model app.toApp lowering plan (depth + 1) authored (.storage field.storage) value)
      (fun field hfield => ?_) (by rwa [List.map_nil, List.nil_append, hstoredKeys]))
      fun storedValues hstored => ⟨_, hstored.1, ?_⟩)
    · obtain ⟨declared, hdeclared, hlowers⟩ := mem_of_forall₂_left hof.fields.flip hfield
      obtain ⟨value, hvalue⟩ :=
        storedField_some hvalid hrepresented hof.declared hlowers depth authored
      have hkey : field.storage ∈ storage.fields.map Prod.fst := by
        rw [hof.storage, hlowers.stored]
        exact List.mem_map.mpr ⟨declared, hdeclared, rfl⟩
      refine ⟨value, .stored hfield hvalue, fun values => ?_⟩
      rw [hphysical.physicalField hkey, hvalue]
      rfl
    have hvalueKeys : ([] ++ storedValues).map Prod.fst =
        storage.fields.map fun field => PhysicalFieldId.storage field.1 := by
      rw [List.nil_append, ← hstoredKeys]
      exact map_eq_of_forall₂ hstored.2 fun _ _ h => h.1
    -- then the generated ones, in the order in which they are planned
    refine exists_bind_literal (Exists.elim (foldlM_insertField
      (fun ast : GeneratedFieldId × SilExpr => PhysicalFieldId.generated ast.1)
      (fun ast value =>
        FieldValue model app.toApp lowering plan (depth + 1) authored (.generated ast.1) value)
      (fun ast hmem => ⟨.generated ast.2, planGeneratedFields_value _ _ hasts hmem, fun _ => rfl⟩) ?_)
      fun generatedValues hgenerated => ⟨_, hgenerated.1, ?_⟩)
    · rw [hvalueKeys, hgeneratedKeys]
      exact List.nodup_append.mpr ⟨hstoredNodup, hgeneratedNodup, fun id hid id' hid' heq =>
        hdisjoint id' hid' id hid heq.symm⟩
    -- every value is one of a physical field, and every physical field has one
    have hperm : (plan.physical.physical.fields.map (·.id)).Perm
        (([] ++ storedValues ++ generatedValues).map Prod.fst) := by
      rw [List.map_append, hvalueKeys, map_eq_of_forall₂ hgenerated.2 fun _ _ h => h.1,
        hgeneratedKeys, hphysical.ids]
      exact List.perm_append_comm
    have hvalue : ∀ pair ∈ [] ++ storedValues ++ generatedValues,
        FieldValue model app.toApp lowering plan (depth + 1) authored pair.1 pair.2 := by
      intro pair hpair
      obtain hmem | hmem := List.mem_append.mp hpair
      · obtain ⟨field, -, hkey, hvalue⟩ := mem_of_forall₂_left hstored.2.flip hmem
        rw [hkey]
        exact hvalue
      · obtain ⟨ast, -, hkey, hvalue⟩ := mem_of_forall₂_left hgenerated.2.flip hmem
        rw [hkey]
        exact hvalue
    obtain ⟨taken, htaken, hall⟩ := takeFields_perm hperm
    refine ⟨taken, ?_, hall.imp fun field out hout => ⟨hout.1, hvalue _ hout.2⟩⟩
    rw [htaken]
    rfl

end

/-! ## one bank -/

/-- a state of the bank whose payload is stored as a digest, with the fields of that payload -/
def bankStates (fields payload : List FieldDecl) : StateModel where
  stateSources := [⟨"Safe"⟩, ⟨"Vault"⟩, ⟨"Box"⟩, ⟨"Desk"⟩]
  stateBySource source :=
    if source = ⟨"Safe"⟩ then .ok ⟨"Safe", fields, none⟩
    else if source = ⟨"Vault"⟩ then .ok ⟨"Vault", [], some ⟨"Safe", [⟨"contents", "Box"⟩]⟩⟩
    else if source = ⟨"Box"⟩ then .ok ⟨"Box", payload, none⟩
    else if source = ⟨"Desk"⟩ then .ok ⟨"Desk", [], none⟩
    else .error "unknown state"
  listed source state h := by
    split_ifs at h with h₁ h₂ h₃ h₄
    · rw [h₁]; decide
    · rw [h₂]; decide
    · rw [h₃]; decide
    · rw [h₄]; decide
  asStr source := source.origin
  baseState _ := ⟨"Safe"⟩
  digestState _ _ digest := .ok ⟨digest.state⟩
  fieldState _ _ _ := .ok none
  linkedActors := []
  staticActorSourceState
    | .inApp name => if name = "Bank" then .ok ⟨"Vault"⟩ else .ok ⟨"Desk"⟩
    | .linked _ => .error "unknown actor"
  selectorSourceState _ := .error "unknown selector"
  dynamicSourceStates _ := .ok []

/-- the planned output of the bank to itself -/
def bankOutput (model : StateModel) : Except String
    (ContractStateLowering × ActorOutputPlan × OutputTargetPlan × OutputStateTarget) := do
  let lowering ← contractStateLowering model compiledBankApp.toApp compiledBankApp.plan bank
  let outputs ← actorOutputPlan model compiledBankApp.toApp compiledBankApp.plan bank lowering
  let plan ← outputs.target (.actor (.inApp "Bank"))
  let target ← outputStateTarget model compiledBankApp.toApp lowering plan
  return (lowering, outputs, plan, target)

def contents : FieldDecl := ⟨.fixedArray "byte" 32, "contents", true⟩

def amount : FieldDecl := ⟨.new "int", "amount", false⟩

def boxFields : List FieldDecl := [⟨.new "bool", "open", false⟩, amount]

theorem bankOutput_isOk : (bankOutput (bankStates [contents, amount] boxFields)).isOk = true := by
  decide +kernel

theorem bankOutput_wrapped : (bankOutput (bankStates [contents, amount] boxFields)).toOption.map
    (·.2.2.2.isUnwrappedAuthoredValue) = some false := by
  decide +kernel

theorem bankStates_valid : ∀ source ∈ (bankStates [contents, amount] boxFields).stateSources,
    validateStateExpansion (bankStates [contents, amount] boxFields) source = .ok ⟨⟩ := by
  intro source hsource
  have hok : ∀ source ∈ (bankStates [contents, amount] boxFields).stateSources,
      (validateStateExpansion (bankStates [contents, amount] boxFields) source).isOk = true := by
    decide +kernel
  obtain ⟨_, h⟩ := exists_ok_of_isOk (hok source hsource)
  exact h

/-- the bank writes its vault, with the digest of its box and the sum -/
theorem materializeAuthoredAst_complete_bank : ∃ lowering target fields,
    OutputStateTarget.materializeAuthoredAst target (bankStates [contents, amount] boxFields) lowering 1
      (StateExpr.authored ()) = some (.structLiteral target.silType fields) := by
  obtain ⟨⟨lowering, outputs, plan, target⟩, hall⟩ := exists_ok_of_isOk bankOutput_isOk
  have hwrapped := bankOutput_wrapped
  rw [hall] at hwrapped
  obtain ⟨_, hlowering, h⟩ := bind_eq_ok.mp hall
  obtain ⟨_, houtputs, h⟩ := bind_eq_ok.mp h
  obtain ⟨_, hplan, h⟩ := bind_eq_ok.mp h
  obtain ⟨_, htarget, h⟩ := bind_eq_ok.mp h
  cases h
  have hnames : ∀ stored,
      (bankStates [contents, amount] boxFields).storageStateBySource plan.physical.source = .ok stored →
        (stored.fields.map (·.name)).Nodup := by
    intro stored hstored
    unfold StateModel.storageStateBySource bankStates at hstored
    dsimp only at hstored
    split_ifs at hstored <;> cases hstored <;> decide
  obtain ⟨fields, hfields, -⟩ := (materializeAuthoredAst_complete 0 (StateExpr.authored ())
    bankStates_valid hlowering houtputs hplan htarget hnames).2.2 (Option.some.inj hwrapped)
  exact ⟨lowering, target, fields, hfields⟩

end Argent.Codegen
