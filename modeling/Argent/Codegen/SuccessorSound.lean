import Argent.Codegen.Successor
import Argent.Codegen.TemplateSources

/-!
# Generated fields of a successor are defined

* `eval_concatTemplates`      joined templates are a route table;
* `passedTable_value`         a passed table is the table of its family;
* `templateLocal_value`       a slice of a known table is a template;
* `ReachedField`              what the actor holds for a generated field of a successor;
* `successorDefined_iff`      **the fields are defined exactly when their templates are available**;
* `successorDefined_scout`    a successor that needs a template the entry never names.
-/

set_option linter.unusedSectionVars false

namespace Argent.Codegen
open Argent.Model Argent.Sil Argent.Routing Argent.Fallible

/-! ## joined templates -/

/-- the identifiers of templates -/
def templateNames (actors : List DeclId) : List SilExpr :=
  actors.map fun actor => .identifier (hiddenTemplateName actor)

theorem templateIdentifiers_ok {app : App} {actors : List DeclId}
    (h : ∀ a ∈ actors, (app.actor? a).isSome = true) (message : String) :
    templateIdentifiers app actors message = .ok (templateNames actors) := by
  refine mapM_of_forall fun a ha => ?_
  obtain ⟨model, hmodel⟩ := Option.isSome_iff_exists.mp (h a ha)
  rw [hmodel]
  dsimp only
  rw [(App.actor?_eq_some.mp hmodel).2]

theorem identifiers_foldl {actors : List DeclId} : ∀ {acc : SilExpr} {name : String},
    name ∈ ((templateNames actors).foldl (.binary .add) acc).identifiers →
      name ∈ acc.identifiers ∨ ∃ actor ∈ actors, name = hiddenTemplateName actor := by
  induction actors with
  | nil => exact fun h => Or.inl h
  | cons actor actors ih =>
    intro acc name h
    obtain h | ⟨other, hother, rfl⟩ := @ih (.binary .add acc
      (.identifier (hiddenTemplateName actor))) name h
    · rw [SilExpr.identifiers, SilExpr.identifiers] at h
      obtain h | h := List.mem_append.mp h
      · exact Or.inl h
      · exact Or.inr ⟨actor, List.mem_cons_self, List.mem_singleton.mp h⟩
    · exact Or.inr ⟨other, List.mem_cons_of_mem _ hother, rfl⟩

theorem identifiers_concat {actors : List DeclId} {name : String}
    (h : name ∈ (concat (templateNames actors)).identifiers) :
    ∃ actor ∈ actors, name = hiddenTemplateName actor := by
  cases actors with
  | nil =>
    have hnil : (concat (templateNames [])).identifiers = [] := by
      show (SilExpr.bytes []).identifiers = []
      rw [SilExpr.identifiers]
    rw [hnil] at h
    cases h
  | cons actor actors =>
    obtain h | ⟨other, hother, rfl⟩ := @identifiers_foldl actors
      (.identifier (hiddenTemplateName actor)) name h
    · rw [SilExpr.identifiers] at h
      exact ⟨actor, List.mem_cons_self, List.mem_singleton.mp h⟩
    · exact ⟨other, List.mem_cons_of_mem _ hother, rfl⟩

section
variable {ctx : ScriptContext} {env : Env} {template : DeclId → Bytes}

theorem eval_foldl {actors : List DeclId} : ∀ {acc : SilExpr} {value : Bytes},
    acc.eval ctx env = some (.bytes value) →
      (∀ a ∈ actors, env.lookup (hiddenTemplateName a) = some (.bytes (template a))) →
      ((templateNames actors).foldl (.binary .add) acc).eval ctx env =
        some (.bytes (value ++ actors.flatMap template)) := by
  induction actors with
  | nil =>
    intro acc value hacc _
    rw [List.flatMap_nil, List.append_nil]
    exact hacc
  | cons actor actors ih =>
    intro acc value hacc h
    have hsum : (SilExpr.binary .add acc (.identifier (hiddenTemplateName actor))).eval ctx env =
        some (.bytes (value ++ template actor)) :=
      eval_binary.mpr ⟨_, _, hacc, eval_identifier.trans (h actor List.mem_cons_self), rfl⟩
    rw [List.flatMap_cons, ← List.append_assoc]
    exact ih hsum fun a ha => h a (List.mem_cons_of_mem _ ha)

theorem eval_concatTemplates {actors : List DeclId}
    (h : ∀ a ∈ actors, env.lookup (hiddenTemplateName a) = some (.bytes (template a))) :
    (concat (templateNames actors)).eval ctx env = some (.bytes (actors.flatMap template)) := by
  cases actors with
  | nil =>
    show (SilExpr.bytes []).eval ctx env = some (.bytes [])
    rw [SilExpr.eval]
  | cons actor actors =>
    rw [List.flatMap_cons]
    exact eval_foldl (eval_identifier.trans (h actor List.mem_cons_self))
      fun a ha => h a (List.mem_cons_of_mem _ ha)

theorem identifiers_blake3Of {value : SilExpr} :
    (blake3Of value).identifiers = value.identifiers := by
  unfold blake3Of
  rw [SilExpr.identifiers, identifiersAll, identifiersAll, List.append_nil, SilExpr.identifiers,
    identifiersAll, identifiersAll, List.append_nil]

theorem eval_blake3Of {value : SilExpr} {bytes : Bytes}
    (h : value.eval ctx env = some (.bytes bytes)) :
    (blake3Of value).eval ctx env = some (.bytes (ctx.hashes.blake3 bytes)) :=
  eval_call₁.mpr ⟨_, eval_call₁.mpr ⟨_, h, rfl⟩, rfl⟩

theorem eval_blake3Of_ok {value : SilExpr} {hash : Bytes}
    (h : (blake3Of value).eval ctx env = some (.bytes hash)) :
    ∃ bytes, value.eval ctx env = some (.bytes bytes) ∧ ctx.hashes.blake3 bytes = hash := by
  obtain ⟨v, hv, hrun⟩ := eval_call₁.mp h
  obtain ⟨v', hv', hrun'⟩ := eval_call₁.mp hv
  cases v' with
  | bytes bytes =>
    have hcast : v = .bytes bytes := (Option.some_inj.mp hrun').symm
    rw [hcast] at hrun
    have hhash := Option.some_inj.mp hrun
    injection hhash with hhash
    exact ⟨bytes, hv', hhash⟩
  | int _ | bool _ | state _ => cases hrun'

end

/-! ## the active state -/

section
variable {app : App} {plan : CompilerRoutePlan} {actor : ActorModel} {entry : EntryModel}
  {nodesOf : DeclId → List (CommitmentNode DeclId)} {active : List GeneratedField}
  (hf : Families app plan) (hc : Carriage app plan nodesOf) (ha : actor ∈ app.actors)
  (hactive : generatedFieldsForActor app plan actor.name = .ok active)

include hc ha hactive

theorem mem_active {field : GeneratedField} :
    field ∈ active ↔ NodeField app plan actor.name (nodesOf actor.name) field := by
  obtain ⟨fields, hfields, _, hspec⟩ := hc.generated actor ha
  rw [hactive] at hfields
  rw [Except.ok.inj hfields]
  exact hspec field

theorem mem_active_template {leaf : DeclId} (h : .template leaf ∈ active.map (·.id)) :
    ⟨.template leaf, hiddenTemplateName leaf, ⟨"byte", 32⟩⟩ ∈ active := by
  obtain ⟨field, hfield, hid⟩ := List.mem_map.mp h
  obtain ⟨other, _, _, rfl⟩ | ⟨family, _, _, rfl⟩ | ⟨family, _, rfl⟩ :=
    ((mem_active hc ha hactive).mp hfield).kinds
  · injection hid with hid
    rwa [hid] at hfield
  · cases hid
  · cases hid

include hf

theorem table_of_mem_active {family : RouteFamily} (hmem : family ∈ plan.families)
    (h : (routeTableField app family).id ∈ active.map (·.id)) : actor.name ∈ family.actors := by
  obtain ⟨field, hfield, hid⟩ := List.mem_map.mp h
  obtain ⟨other, _, _, rfl⟩ | ⟨other, _, _, rfl⟩ | ⟨own, hown, rfl⟩ :=
    ((mem_active hc ha hactive).mp hfield).kinds
  · cases hid
  · cases hid
  · obtain ⟨hown, hin⟩ := (hf.forActor _ _).mp hown
    injection hid with _ hid _
    have heq := (hf.byId family.id own).mpr ⟨hown, hid⟩
    rw [(hf.byId family.id family).mpr ⟨hmem, rfl⟩, Option.some_inj] at heq
    rwa [heq]

theorem table_mem_active {family : RouteFamily} (hmem : family ∈ plan.families)
    (hin : actor.name ∈ family.actors) : routeTableField app family ∈ active :=
  (mem_active hc ha hactive).mpr (.table ((hf.forActor _ _).mpr ⟨hmem, hin⟩))

/-- a leaf of a foreign family is a template of the active state -/
theorem template_mem_active {family : RouteFamily} (hmem : family ∈ plan.families)
    (hout : actor.name ∉ family.actors) {leaf : DeclId} (hin : leaf ∈ family.tableActors)
    (hleaf : .leaf leaf ∈ nodesOf actor.name) :
    ⟨.template leaf, hiddenTemplateName leaf, ⟨"byte", 32⟩⟩ ∈ active := by
  have houtside : OutsideTable plan actor.name leaf := by
    intro own hown htable
    obtain ⟨hownmem, hownin⟩ := (hf.forActor _ _).mp hown
    have heq := (hf.forActor leaf own).mpr ⟨hownmem, hf.table own hownmem leaf htable⟩
    rw [(hf.forActor leaf family).mpr ⟨hmem, hf.table family hmem leaf hin⟩,
      Option.some_inj] at heq
    exact hout (heq ▸ hownin)
  obtain ⟨field, ⟨fields, hfields, hfield⟩, hid, hname⟩ := carriesTemplate hf hc ha hleaf houtside
  rw [hactive] at hfields
  rw [← Except.ok.inj hfields] at hfield
  refine mem_active_template hc ha hactive ?_
  rw [← hid]
  exact List.mem_map_of_mem hfield

end

/-! ## values -/

theorem tableBytes_length {template : DeclId → Bytes} (h : ∀ a, (template a).length = 32)
    {family : RouteFamily} : (tableBytes template family).length = family.tableByteLen := by
  unfold tableBytes RouteFamily.tableByteLen
  rw [List.length_flatMap, List.map_congr_left fun a _ => h a, List.map_const', List.sum_replicate]
  rfl

section
variable {app : CompiledApp}

theorem canonical_digest {blake3 : Bytes → Bytes} {template : DeclId → Bytes} {family : RouteFamily}
    (hmem : family ∈ app.plan.families) :
    canonicalCommitment app.plan blake3 template (routeDigestField app.toApp family).id =
      blake3 (tableBytes template family) := by
  obtain ⟨hf, _⟩ := app.carriage
  have hfamily : routeFamily app.plan family.id = some family := (hf.byId _ _).mpr ⟨hmem, rfl⟩
  unfold canonicalCommitment routeDigestField
  simp only [hfamily]

theorem table_selected {family : RouteFamily} (hmem : family ∈ app.plan.families) :
    ∀ x ∈ family.tableActors, (app.actor? x).isSome = true := by
  obtain ⟨hf, _⟩ := app.carriage
  intro x hx
  obtain ⟨model, hmodel, hname, _⟩ := hf.members family hmem x (hf.table family hmem x hx)
  exact App.actor?_isSome.mpr (hname ▸ List.mem_map_of_mem hmodel)

end

section
variable {app : CompiledApp} {actor : ActorModel} {entry : EntryModel} {witnesses : WitnessPlan}
  {active : List GeneratedField} {ctx : ScriptContext} {template : DeclId → Bytes}
  {start frame : Frame}
  (hcanonical : CanonicalState app.plan ctx.hashes.blake3 template active start.env)
  (hrun : execAll ctx (entryTemplatePrelude witnesses) start = some frame)
include hcanonical hrun

theorem active_value {field : GeneratedField} (hfield : field ∈ active) :
    frame.env.lookup field.name =
      some (.bytes (canonicalCommitment app.plan ctx.hashes.blake3 template field.id)) :=
  (execAll_extends hrun).names (hcanonical field hfield)

theorem passedTable_value (hinj : ∀ a b, ctx.hashes.blake3 a = ctx.hashes.blake3 b → a = b)
    {family : RouteFamily} (hmem : family ∈ app.plan.families) (hpassed : family ∈ witnesses.families)
    (hdigest : routeDigestField app.toApp family ∈ active) :
    frame.env.lookup (hiddenRouteFamilyTableName family.id) =
      some (.bytes (tableBytes template family)) := by
  have hcheck : comparison .eq (blake3Of (.identifier (hiddenRouteFamilyTableName family.id)))
      (.identifier (hiddenRouteFamilyCommitmentName family.id)) ∈ entryTemplatePrelude witnesses :=
    List.mem_append_left _ (List.mem_append_right _ (List.mem_map_of_mem hpassed))
  obtain ⟨before, after, hbefore, hcheck, hafter⟩ := execAll_mem hrun hcheck
  obtain ⟨heq, rfl⟩ := exec_require.mp hcheck
  obtain ⟨v, v', hleft, hright, hrunEq⟩ := eval_binary.mp heq
  rw [run_eq.mp hrunEq] at hleft
  have hfield := hbefore.names (hcanonical _ hdigest)
  rw [eval_identifier] at hright
  replace hfield : after.env.lookup (hiddenRouteFamilyCommitmentName family.id) = _ := hfield
  rw [hfield, canonical_digest hmem, Option.some_inj] at hright
  rw [← hright] at hleft
  obtain ⟨bytes, htable, hhash⟩ := eval_blake3Of_ok hleft
  rw [eval_identifier] at htable
  rw [← hinj _ _ hhash]
  exact hafter.names htable

/-- a slice of a table is the template of the actor at its position -/
theorem templateLocal_value (hlen : ∀ a, (template a).length = 32) {spec : TemplateWitnessSpec}
    (hspec : spec ∈ witnesses.templates) {family : RouteFamily} {leaf : DeclId} {index : Nat}
    (hsource : spec.source = .familyTable family.id (index * 32))
    (hindex : family.tableActors[index]? = some leaf)
    (htable : frame.env.lookup (hiddenRouteFamilyTableName family.id) =
      some (.bytes (tableBytes template family))) :
    frame.env.lookup (hiddenTemplateName spec.actor) = some (.bytes (template leaf)) := by
  have hdefine : .define (hiddenTemplateName spec.actor) (tableSlice family.id (index * 32)) ∈
      entryTemplatePrelude witnesses := by
    refine List.mem_append_right _ (List.mem_filterMap.mpr ⟨spec, hspec, ?_⟩)
    unfold templateDefinition
    rw [hsource]
  obtain ⟨before, after, _, hdefine, hafter⟩ := execAll_mem hrun hdefine
  obtain ⟨v, hv, hnew, hout⟩ := exec_define.mp hdefine
  have hkept : before.env.Sub frame.env := by
    refine Env.Sub.trans ?_ hafter.names
    rw [hout]
    exact Env.Sub.define hnew
  obtain ⟨cut, hcut, hcast⟩ := eval_call₁.mp hv
  obtain ⟨table, first, last, hlookup, hfirst, hlast, hcut⟩ := eval_slice.mp hcut
  have hsame := hkept (eval_identifier.symm.trans hlookup)
  rw [htable, Option.some_inj] at hsame
  rw [number, SilExpr.eval, Option.some_inj] at hfirst hlast
  rw [← hsame, ← hfirst, ← hlast] at hcut
  unfold Value.slice at hcut
  dsimp only at hcut
  split at hcut
  · have hsize : (((index * 32 + 32 : Nat) : Int) - ((index * 32 : Nat) : Int)).toNat = 32 := by
      omega
    rw [hsize, Int.toNat_natCast, tableBytes_slice hlen hindex, Option.some_inj] at hcut
    rw [← hcut] at hcast
    rw [run_byteArray (hlen leaf), Option.some_inj] at hcast
    refine hafter.names ?_
    rw [hout, ← hcast, List.lookup_cons, beq_self_eq_true]
  · cases hcut

end

/-! ## fields of the active state -/

section
variable {app : CompiledApp} {witnesses : WitnessPlan} {active : List GeneratedField}

theorem fieldDefined_active {field : GeneratedField} (hfield : field ∈ active)
    {source : GeneratedFieldSource} (hsource : source = .carried ∨ source = .templateField) :
    FieldDefined app.toApp app.plan active witnesses field source := by
  refine ⟨.identifier field.name, ?_, fun name hname => ?_, fun ctx template start frame _ _
    hcanonical hrun => ?_⟩
  · obtain rfl | rfl := hsource
    · rfl
    · rfl
  · rw [SilExpr.identifiers] at hname
    rw [List.mem_singleton.mp hname]
    exact List.mem_append_left _ (List.mem_append_left _ (List.mem_map_of_mem hfield))
  · rw [eval_identifier]
    exact active_value hcanonical hrun hfield

theorem joined_value {family : RouteFamily}
    (hall : ∀ x ∈ family.tableActors, ⟨.template x, hiddenTemplateName x, ⟨"byte", 32⟩⟩ ∈ active) :
    (∀ name ∈ (concat (templateNames family.tableActors)).identifiers,
        name ∈ scopeNames active witnesses) ∧
      ∀ {ctx : ScriptContext} {template : DeclId → Bytes} {start frame : Frame},
        CanonicalState app.plan ctx.hashes.blake3 template active start.env →
        execAll ctx (entryTemplatePrelude witnesses) start = some frame →
          (concat (templateNames family.tableActors)).eval ctx frame.env =
            some (.bytes (tableBytes template family)) := by
  refine ⟨fun name hname => ?_, fun hcanonical hrun => ?_⟩
  · obtain ⟨x, hx, rfl⟩ := identifiers_concat hname
    exact List.mem_append_left _ (List.mem_append_left _
      (List.mem_map_of_mem (f := GeneratedField.name) (hall x hx)))
  · exact eval_concatTemplates fun x hx => active_value hcanonical hrun (hall x hx)

end

/-! ## sources of fields -/

section
variable {app : App} {plan : CompilerRoutePlan} {actor : DeclId} (hf : Families app plan)
  {family : RouteFamily} (hmem : family ∈ plan.families) {held : List GeneratedFieldId}
  {packed rest : List String} {source : GeneratedFieldSource}
include hf hmem

theorem digestSource_ok (h : generatedFieldSource plan actor held packed
      (routeDigestField app family).id = .ok (source, rest)) :
    (family.id ∈ packed ∧ actor ∈ family.actors ∧ source = .digestFromTable family.id) ∨
      (family.id ∈ packed ∧ actor ∉ family.actors ∧
        source = .digestFromTemplates family.tableActors) ∨
      (family.id ∉ packed ∧ source = .carried) := by
  unfold generatedFieldSource routeDigestField at h
  dsimp only at h
  by_cases hin : family.id ∈ packed
  · rw [if_pos hin, (hf.byId _ _).mpr ⟨hmem, rfl⟩] at h
    dsimp only at h
    split at h
    · rename_i hown
      obtain ⟨own, howns, hid⟩ := (Option.any_eq_true _ _).mp hown
      obtain ⟨hownmem, hownin⟩ := (hf.forActor _ _).mp howns
      have hsame := (hf.byId family.id own).mpr ⟨hownmem, of_decide_eq_true hid⟩
      rw [(hf.byId family.id family).mpr ⟨hmem, rfl⟩, Option.some_inj] at hsame
      obtain ⟨rfl, _⟩ := Prod.mk.inj (Except.ok.inj h)
      exact Or.inl ⟨hin, hsame ▸ hownin, rfl⟩
    · rename_i hown
      obtain ⟨rfl, _⟩ := Prod.mk.inj (Except.ok.inj h)
      refine Or.inr (Or.inl ⟨hin, fun hactor => hown ?_, rfl⟩)
      rw [(hf.forActor _ _).mpr ⟨hmem, hactor⟩]
      exact decide_eq_true rfl
  · rw [if_neg hin] at h
    obtain ⟨rfl, _⟩ := Prod.mk.inj (Except.ok.inj h)
    exact Or.inr (Or.inr ⟨hin, rfl⟩)

theorem tableSource_ok (h : generatedFieldSource plan actor held packed
      (routeTableField app family).id = .ok (source, rest)) :
    (source = .tableFromTemplates family.tableActors ∧
        ∀ x ∈ family.tableActors, .template x ∈ held) ∨
      (source = .carried ∧ ((routeTableField app family).id ∈ held ∨
        ∃ x ∈ family.tableActors, .template x ∉ held)) := by
  unfold generatedFieldSource routeTableField at h
  dsimp only at h
  split at h
  · rename_i hheld
    rw [(hf.byId _ _).mpr ⟨hmem, rfl⟩] at h
    dsimp only at h
    rw [if_neg (not_not.mpr rfl)] at h
    obtain ⟨rfl, _⟩ := Prod.mk.inj (Except.ok.inj h)
    exact Or.inl ⟨rfl, hheld.2⟩
  · rename_i hheld
    obtain ⟨rfl, _⟩ := Prod.mk.inj (Except.ok.inj h)
    refine Or.inr ⟨rfl, ?_⟩
    by_cases hid : (routeTableField app family).id ∈ held
    · exact Or.inl hid
    · refine Or.inr (by_contra fun hnone => hheld ⟨hid, fun x hx => by_contra fun hnot => ?_⟩)
      exact hnone ⟨x, hx, hnot⟩

end

/-! ## reached fields -/

/-- what the actor holds for a generated field of a successor -/
inductive ReachedField (app : App) (plan : CompilerRoutePlan) (actor : ActorModel)
    (entry : EntryModel) (nodes : List (CommitmentNode DeclId)) (packed : List String) :
    GeneratedField → Prop
  | template {leaf} : leaf ∈ app.actors.map (·.name) →
      ReachedField app plan actor entry nodes packed
        ⟨.template leaf, hiddenTemplateName leaf, ⟨"byte", 32⟩⟩
  | digest {family} : family ∈ plan.families →
      (family.id ∈ packed → ∀ x ∈ family.tableActors, .leaf x ∈ nodes) →
      (family.id ∉ packed → family.branch ∈ nodes) →
      ReachedField app plan actor entry nodes packed (routeDigestField app family)
  | table {family} : family ∈ plan.families →
      (actor.name ∈ family.actors ∨ (∀ x ∈ family.tableActors, .leaf x ∈ nodes) ∨
        OpensFamily app plan actor entry family) →
      ReachedField app plan actor entry nodes packed (routeTableField app family)

/-! ## known tables -/

/-- a passed table belongs to a planned family -/
theorem witnessPlan_families {app : App} {plan : CompilerRoutePlan} {actor : ActorModel}
    {entry : EntryModel} {witnesses : WitnessPlan} (hf : Families app plan)
    (h : witnessPlan app plan actor entry = .ok witnesses) {family : RouteFamily}
    (hpassed : family ∈ witnesses.families) : family ∈ plan.families := by
  obtain ⟨_, _, h⟩ := bind_eq_ok.mp h
  obtain ⟨_, _, h⟩ := bind_eq_ok.mp h
  rw [← pure_eq_ok.mp h] at hpassed
  obtain ⟨id, _, hfamily⟩ := List.mem_filterMap.mp hpassed
  exact ((hf.byId id family).mp hfamily).1

section
variable {app : CompiledApp} {actor : ActorModel} {entry : EntryModel} {witnesses : WitnessPlan}
  {nodesOf : DeclId → List (CommitmentNode DeclId)} {active : List GeneratedField}
  (hc : Carriage app.toApp app.plan nodesOf) (ha : actor ∈ app.actors)
  (hentry : entry ∈ actor.entries)
  (hw : witnessPlan app.toApp app.plan actor entry = .ok witnesses)
  (hactive : generatedFieldsForActor app.toApp app.plan actor.name = .ok active)
include hc ha

theorem opened_branch (hentry : entry ∈ actor.entries) {family : RouteFamily}
    (hmem : family ∈ app.plan.families) (h : OpensFamily app.toApp app.plan actor entry family) :
    family.branch ∈ nodesOf actor.name := by
  obtain ⟨hf, _⟩ := app.carriage
  have hv := validateEntry_ok (app.validated actor ha entry hentry)
  obtain ⟨write, hwrite, hne, transition, htransition, hid⟩ := h
  obtain ⟨_, group, hgroup, htarget⟩ := mem_writes hv hwrite
  obtain ⟨transition', htransition', htransforms⟩ :=
    hc.transition actor ha entry hentry group hgroup write htarget
  rw [htransition, Option.some_inj] at htransition'
  obtain ⟨other, hother, heq, hbranch⟩ := htransforms.opened _ (htransition' ▸ hid)
  have hsame := (hf.byId family.id other).mpr ⟨hother, heq⟩
  rw [(hf.byId family.id family).mpr ⟨hmem, rfl⟩, Option.some_inj] at hsame
  rwa [hsame]

include hentry hw hactive

/-- the table of the own family and the tables opened by the entry are known, and no other -/
theorem mem_passedNames {family : RouteFamily} (hmem : family ∈ app.plan.families) :
    hiddenRouteFamilyTableName family.id ∈ passedNames active witnesses ↔
      actor.name ∈ family.actors ∨ OpensFamily app.toApp app.plan actor entry family := by
  obtain ⟨hf, _⟩ := app.carriage
  have hp := witnessPlan_ok hf hw
  constructor
  · intro h
    obtain h | h := List.mem_append.mp h
    · obtain ⟨field, hfield, hname⟩ := List.mem_map.mp h
      obtain ⟨leaf, _, _, rfl⟩ | ⟨other, _, _, rfl⟩ | ⟨own, hown, rfl⟩ :=
        ((mem_active hc ha hactive).mp hfield).kinds
      · exact absurd hname template_ne_table
      · exact absurd hname.symm table_ne_digest
      · obtain ⟨hown, hin⟩ := (hf.forActor _ _).mp hown
        rw [app.tableName_inj hmem hown hname.symm]
        exact Or.inl hin
    · obtain ⟨other, hother, hname⟩ := List.mem_map.mp h
      have hplanned := witnessPlan_families hf hw hother
      rw [app.tableName_inj hmem hplanned hname.symm]
      exact Or.inr ((hp.families other hplanned).mp hother)
  · intro h
    obtain hin | hopens := h
    · exact List.mem_append_left _ (List.mem_map_of_mem
        (f := GeneratedField.name) (table_mem_active hf hc ha hactive hmem hin))
    · exact List.mem_append_right _ (List.mem_map_of_mem
        (f := fun family : RouteFamily => hiddenRouteFamilyTableName family.id)
        ((hp.families family hmem).mpr hopens))

theorem knownTable_value {ctx : ScriptContext} {template : DeclId → Bytes} {start frame : Frame}
    (hcanonical : CanonicalState app.plan ctx.hashes.blake3 template active start.env)
    (hrun : execAll ctx (entryTemplatePrelude witnesses) start = some frame)
    (hinj : ∀ a b, ctx.hashes.blake3 a = ctx.hashes.blake3 b → a = b)
    {family : RouteFamily} (hmem : family ∈ app.plan.families)
    (hknown : actor.name ∈ family.actors ∨ OpensFamily app.toApp app.plan actor entry family) :
    frame.env.lookup (hiddenRouteFamilyTableName family.id) =
      some (.bytes (tableBytes template family)) := by
  obtain ⟨hf, _⟩ := app.carriage
  obtain hin | hopens := hknown
  · exact active_value hcanonical hrun (table_mem_active hf hc ha hactive hmem hin)
  · refine passedTable_value hcanonical hrun hinj hmem
      (((witnessPlan_ok hf hw).families family hmem).mpr hopens) ?_
    exact (mem_active hc ha hactive).mpr (.digest hmem (opened_branch hc ha hentry hmem hopens))

theorem fieldDefined_table {family : RouteFamily} (hmem : family ∈ app.plan.families)
    (hknown : actor.name ∈ family.actors ∨ OpensFamily app.toApp app.plan actor entry family) :
    FieldDefined app.toApp app.plan active witnesses (routeTableField app.toApp family) .carried := by
  refine ⟨_, rfl, fun name hname => ?_, fun ctx template start frame hinj _ hcanonical hrun => ?_⟩
  · rw [SilExpr.identifiers] at hname
    rw [List.mem_singleton.mp hname]
    exact List.mem_append_left _ ((mem_passedNames hc ha hentry hw hactive hmem).mpr hknown)
  · rw [eval_identifier]
    exact knownTable_value hc ha hentry hw hactive hcanonical hrun hinj hmem hknown

/-- a used template is a slice of a known table or an active field -/
theorem fieldDefined_used {leaf : DeclId} (hselected : leaf ∈ app.actors.map (·.name))
    (huses : UsesTemplate app.toApp app.plan actor entry leaf) :
    FieldDefined app.toApp app.plan active witnesses
      ⟨.template leaf, hiddenTemplateName leaf, ⟨"byte", 32⟩⟩ .templateField := by
  obtain ⟨hf, _⟩ := app.carriage
  have hv := validateEntry_ok (app.validated actor ha entry hentry)
  have hp := witnessPlan_ok hf hw
  obtain ⟨hused, hreach⟩ := huses
  obtain ⟨spec, hspec, hid⟩ := hp.complete _ (inApp_mem_requiredTemplates hselected hused)
  have hname : hiddenTemplateName spec.actor = hiddenTemplateName leaf := by
    rw [(hp.used spec hspec).1, hid]
    rfl
  obtain ⟨_, hnot⟩ | ⟨family, index, hmem, ⟨htable, hsliced⟩, hindex, hsource⟩ :=
    hp.source spec hspec leaf hid
  · -- the template is a leaf of the actor's own cut
    have hleaf := used_leaf hf hc ha hentry hv hused fun family hmem htable hopens =>
      hnot family hmem (hf.table family hmem _ htable) ⟨htable, Or.inl hopens⟩
    have hout : OutsideTable app.plan actor.name leaf := by
      intro own hown htable
      obtain ⟨hmem, hin⟩ := (hf.forActor _ _).mp hown
      obtain ⟨model, hmodel, hmname, hstate⟩ := hf.members own hmem _ hin
      have heq := List.inj_on_of_nodup_map app.distinct hmodel ha hmname
      exact hnot own hmem (hf.table own hmem _ htable) ⟨htable, Or.inr (heq ▸ hstate).symm⟩
    obtain ⟨field, ⟨fields, hfields, hfield⟩, hfid, _⟩ := carriesTemplate hf hc ha hleaf hout
    rw [hactive] at hfields
    rw [← Except.ok.inj hfields] at hfield
    refine fieldDefined_active ?_ (Or.inr rfl)
    exact mem_active_template hc ha hactive (hfid ▸ List.mem_map_of_mem hfield)
  · have hknown : actor.name ∈ family.actors ∨ OpensFamily app.toApp app.plan actor entry family := by
      obtain hopens | hstate := hsliced
      · exact Or.inr hopens
      · exact hreach family hmem htable hstate
    refine ⟨_, rfl, fun name hname' => ?_, fun ctx template start frame hinj hlen hcanonical hrun => ?_⟩
    · rw [SilExpr.identifiers] at hname'
      rw [List.mem_singleton.mp hname']
      refine List.mem_append_right _ (List.mem_filterMap.mpr ⟨spec, hspec, ?_⟩)
      rw [hsource]
      dsimp only
      rw [if_pos ((mem_passedNames hc ha hentry hw hactive hmem).mpr hknown), hname]
    · have hlocal := templateLocal_value hcanonical hrun hlen hspec hsource hindex
        (knownTable_value hc ha hentry hw hactive hcanonical hrun hinj hmem hknown)
      rw [hname] at hlocal
      rw [eval_identifier]
      exact hlocal

/-- **A reached field is defined**, when its template is available. -/
theorem fieldDefined_reached {packed : List String} {field : GeneratedField}
    (hfield : ReachedField app.toApp app.plan actor entry (nodesOf actor.name) packed field)
    {source : GeneratedFieldSource} {rest : List String}
    (hsource : generatedFieldSource app.plan actor.name (active.map (·.id)) packed field.id =
      .ok (source, rest))
    (havailable : ∀ leaf, field.id = .template leaf →
      CarriesTemplate app.toApp app.plan actor.name leaf ∨
        UsesTemplate app.toApp app.plan actor entry leaf) :
    FieldDefined app.toApp app.plan active witnesses field source := by
  obtain ⟨hf, _⟩ := app.carriage
  cases hfield with
  | @template leaf hselected =>
    obtain ⟨rfl, _⟩ := Prod.mk.inj (Except.ok.inj hsource)
    obtain ⟨fields, carried, hfields, hcarried, hid⟩ | huses := havailable leaf rfl
    · rw [hactive] at hfields
      rw [← Except.ok.inj hfields] at hcarried
      refine fieldDefined_active ?_ (Or.inr rfl)
      exact mem_active_template hc ha hactive (hid ▸ List.mem_map_of_mem hcarried)
    · exact fieldDefined_used hc ha hentry hw hactive hselected huses
  | @digest family hmem hpacked hkept =>
    obtain ⟨_, hin, rfl⟩ | ⟨hid, hout, rfl⟩ | ⟨hid, rfl⟩ := digestSource_ok hf hmem hsource
    · have hknown : actor.name ∈ family.actors ∨
          OpensFamily app.toApp app.plan actor entry family := Or.inl hin
      refine ⟨_, rfl, fun name hname => ?_, fun ctx template start frame hinj _ hcanonical hrun => ?_⟩
      · rw [identifiers_blake3Of, SilExpr.identifiers] at hname
        rw [List.mem_singleton.mp hname]
        exact List.mem_append_left _ ((mem_passedNames hc ha hentry hw hactive hmem).mpr hknown)
      · rw [canonical_digest hmem]
        exact eval_blake3Of (eval_identifier.trans
          (knownTable_value hc ha hentry hw hactive hcanonical hrun hinj hmem hknown))
    · obtain ⟨hscope, hvalue⟩ := joined_value fun x hx =>
        template_mem_active hf hc ha hactive hmem hout hx (hpacked hid x hx)
      refine ⟨blake3Of (concat (templateNames family.tableActors)), ?_, fun name hname => ?_,
        fun ctx template start frame _ _ hcanonical hrun => ?_⟩
      · unfold generatedFieldExpr
        dsimp only
        rw [templateIdentifiers_ok (table_selected hmem)]
        rfl
      · rw [identifiers_blake3Of] at hname
        exact hscope name hname
      · rw [canonical_digest hmem]
        exact eval_blake3Of (hvalue hcanonical hrun)
    · refine fieldDefined_active ?_ (Or.inl rfl)
      exact (mem_active hc ha hactive).mpr (.digest hmem (hkept hid))
  | @table family hmem hreach =>
    obtain ⟨rfl, hall⟩ | ⟨rfl, hcarried⟩ := tableSource_ok hf hmem hsource
    · obtain ⟨hscope, hvalue⟩ := joined_value fun x hx =>
        mem_active_template hc ha hactive (hall x hx)
      refine ⟨.call (.byteArray (some family.tableByteLen))
        [concat (templateNames family.tableActors)], ?_, fun name hname => ?_,
        fun ctx template start frame _ hlen hcanonical hrun => ?_⟩
      · unfold generatedFieldExpr
        dsimp only
        rw [templateIdentifiers_ok (table_selected hmem)]
        rfl
      · rw [SilExpr.identifiers, identifiersAll, identifiersAll, List.append_nil] at hname
        exact hscope name hname
      · refine eval_call₁.mpr ⟨_, hvalue hcanonical hrun, run_byteArray ?_⟩
        exact tableBytes_length hlen
    · -- the table is not joined from templates, so it is the own table or an opened one
      by_cases hin : actor.name ∈ family.actors
      · exact fieldDefined_table hc ha hentry hw hactive hmem (Or.inl hin)
      · obtain hown | hleaves | hopens := hreach
        · exact absurd hown hin
        · obtain hid | ⟨x, hx, hnot⟩ := hcarried
          · exact absurd (table_of_mem_active hf hc ha hactive hmem hid) hin
          · have hfield := template_mem_active hf hc ha hactive hmem hin hx (hleaves x hx)
            exact absurd (List.mem_map_of_mem (f := GeneratedField.id) hfield) hnot
        · exact fieldDefined_table hc ha hentry hw hactive hmem (Or.inr hopens)

end

/-! ## the sources of a layout -/

section
variable {plan : CompilerRoutePlan} {actor : DeclId} {held : List GeneratedFieldId}

/-- a packed family is left out for the digest of that family only -/
theorem generatedFieldSource_rest {packed rest : List String} {id : GeneratedFieldId}
    {source : GeneratedFieldSource}
    (h : generatedFieldSource plan actor held packed id = .ok (source, rest)) {family : String}
    (hne : ∀ app, id ≠ .routeFamilyDigest app family) : family ∈ rest ↔ family ∈ packed := by
  unfold generatedFieldSource at h
  cases id with
  | template _ =>
    obtain ⟨_, rfl⟩ := Prod.mk.inj (Except.ok.inj h)
    exact Iff.rfl
  | routeFamilyTable _ id actors =>
    dsimp only at h
    split at h
    · cases hfamily : routeFamily plan id with
      | none => rw [hfamily] at h; cases h
      | some found =>
        rw [hfamily] at h
        dsimp only at h
        split at h
        · cases h
        · obtain ⟨_, rfl⟩ := Prod.mk.inj (Except.ok.inj h)
          exact Iff.rfl
    · obtain ⟨_, rfl⟩ := Prod.mk.inj (Except.ok.inj h)
      exact Iff.rfl
  | routeFamilyDigest app id =>
    have hother : family ≠ id := fun heq => hne app (by rw [heq])
    dsimp only at h
    split at h
    · cases hfamily : routeFamily plan id with
      | none => rw [hfamily] at h; cases h
      | some found =>
        rw [hfamily] at h
        dsimp only at h
        split at h
        · obtain ⟨_, rfl⟩ := Prod.mk.inj (Except.ok.inj h)
          exact List.mem_erase_of_ne hother
        · obtain ⟨_, rfl⟩ := Prod.mk.inj (Except.ok.inj h)
          exact List.mem_erase_of_ne hother
    · obtain ⟨_, rfl⟩ := Prod.mk.inj (Except.ok.inj h)
      exact Iff.rfl

/-- the source of a field depends on the packing of its own family only -/
theorem generatedFieldSource_congr {packed packed' rest : List String} {id : GeneratedFieldId}
    {source : GeneratedFieldSource}
    (h : generatedFieldSource plan actor held packed id = .ok (source, rest))
    (hsame : ∀ app family, id = .routeFamilyDigest app family →
      (family ∈ packed ↔ family ∈ packed')) :
    ∃ rest', generatedFieldSource plan actor held packed' id = .ok (source, rest') := by
  unfold generatedFieldSource at h ⊢
  cases id with
  | template _ =>
    obtain ⟨rfl, _⟩ := Prod.mk.inj (Except.ok.inj h)
    exact ⟨packed', rfl⟩
  | routeFamilyTable _ id actors =>
    dsimp only at h ⊢
    split at h
    · rename_i hheld
      rw [if_pos hheld]
      cases hfamily : routeFamily plan id with
      | none => rw [hfamily] at h; cases h
      | some found =>
        rw [hfamily] at h
        dsimp only at h ⊢
        split at h
        · cases h
        · rename_i horder
          rw [if_neg horder]
          obtain ⟨rfl, _⟩ := Prod.mk.inj (Except.ok.inj h)
          exact ⟨packed', rfl⟩
    · rename_i hheld
      rw [if_neg hheld]
      obtain ⟨rfl, _⟩ := Prod.mk.inj (Except.ok.inj h)
      exact ⟨packed', rfl⟩
  | routeFamilyDigest app id =>
    have hiff := hsame app id rfl
    dsimp only at h ⊢
    split at h
    · rename_i hin
      rw [if_pos (hiff.mp hin)]
      cases hfamily : routeFamily plan id with
      | none => rw [hfamily] at h; cases h
      | some found =>
        rw [hfamily] at h
        dsimp only at h ⊢
        split at h
        · rename_i hown
          rw [if_pos hown]
          obtain ⟨rfl, _⟩ := Prod.mk.inj (Except.ok.inj h)
          exact ⟨_, rfl⟩
        · rename_i hown
          rw [if_neg hown]
          obtain ⟨rfl, _⟩ := Prod.mk.inj (Except.ok.inj h)
          exact ⟨_, rfl⟩
    · rename_i hout
      rw [if_neg fun hin => hout (hiff.mpr hin)]
      obtain ⟨rfl, _⟩ := Prod.mk.inj (Except.ok.inj h)
      exact ⟨_, rfl⟩

/-- **The source of every field of a layout is the one it has on its own**: no two digests of the
layout belong to one family. -/
theorem generatedFieldSources_ok {fields : List GeneratedField} : ∀ {packed left : List String}
    {sources : List (GeneratedField × GeneratedFieldSource)},
    (fields.map (·.id)).Nodup →
    (∀ a b family, .routeFamilyDigest a family ∈ fields.map (·.id) →
      .routeFamilyDigest b family ∈ fields.map (·.id) → a = b) →
    generatedFieldSources plan actor held packed fields = .ok (sources, left) →
      sources.map Prod.fst = fields ∧ ∀ source ∈ sources, ∃ rest,
        generatedFieldSource plan actor held packed source.1.id = .ok (source.2, rest) := by
  induction fields with
  | nil =>
    intro packed left sources _ _ h
    obtain ⟨rfl, _⟩ := Prod.mk.inj (Except.ok.inj h)
    exact ⟨rfl, fun source hsource => absurd hsource List.not_mem_nil⟩
  | cons field fields ih =>
    intro packed left sources hnodup hone h
    obtain ⟨⟨source, rest⟩, hsource, h⟩ := bind_eq_ok.mp h
    obtain ⟨⟨sources', left'⟩, hsources, h⟩ := bind_eq_ok.mp h
    obtain ⟨rfl, _⟩ := Prod.mk.inj (Except.ok.inj h)
    rw [List.map_cons, List.nodup_cons] at hnodup
    obtain ⟨hmap, hall⟩ := ih hnodup.2 (fun a b family hin hin' =>
      hone a b family (List.mem_cons_of_mem _ hin) (List.mem_cons_of_mem _ hin')) hsources
    refine ⟨by rw [List.map_cons, hmap], fun other hother => ?_⟩
    obtain rfl | hother := List.mem_cons.mp hother
    · exact ⟨rest, hsource⟩
    · obtain ⟨rest', hrest⟩ := hall other hother
      have hid : other.1.id ∈ fields.map (·.id) := by
        rw [← hmap, List.map_map]
        exact List.mem_map_of_mem (f := fun source => source.1.id) hother
      -- the head is not the digest of the same family
      refine generatedFieldSource_congr hrest fun app family heq => ?_
      refine generatedFieldSource_rest hsource fun app' heq' => ?_
      rw [heq] at hid
      have happ := hone app' app family (heq' ▸ List.mem_cons_self) (List.mem_cons_of_mem _ hid)
      rw [← happ, ← heq'] at hid
      exact hnodup.1 hid

end

/-! ## targets -/

section
variable {app : CompiledApp} {actor : ActorModel} {entry : EntryModel}
  {nodesOf : DeclId → List (CommitmentNode DeclId)} {active : List GeneratedField}
  (hc : Carriage app.toApp app.plan nodesOf) (ha : actor ∈ app.actors)
include hc ha

theorem reached_self (hactive : generatedFieldsForActor app.toApp app.plan actor.name = .ok active)
    {packed : List String}
    (hpacked : ∀ family ∈ app.plan.families, family.branch ∈ nodesOf actor.name → family.id ∉ packed) :
    ∀ field ∈ active,
      ReachedField app.toApp app.plan actor entry (nodesOf actor.name) packed field := by
  obtain ⟨hf, _⟩ := app.carriage
  intro field hfield
  obtain ⟨leaf, hleaf, _, rfl⟩ | ⟨family, hmem, hbranch, rfl⟩ | ⟨family, hown, rfl⟩ :=
    ((mem_active hc ha hactive).mp hfield).kinds
  · exact .template (App.actor?_isSome.mp (hc.selected actor ha leaf hleaf))
  · exact .digest hmem (fun hid => absurd hid (hpacked family hmem hbranch)) fun _ => hbranch
  · obtain ⟨hmem, hin⟩ := (hf.forActor _ _).mp hown
    exact .table hmem (Or.inl hin)

theorem reached_other {target : ActorModel} (ht : target ∈ app.actors) (hne : target.name ≠ actor.name)
    (hwrite : .inApp target.name ∈ (entryTemplateUses app.toApp actor.name entry).writes)
    {transition : CompilerRouteTransition}
    (htransition : routeTransition app.plan actor.name target.name = some transition)
    (htransforms : Transforms app.plan (nodesOf actor.name) (nodesOf target.name) transition)
    {fields : List GeneratedField}
    (hfields : generatedFieldsForActor app.toApp app.plan target.name = .ok fields) :
    ∀ field ∈ fields, ReachedField app.toApp app.plan actor entry (nodesOf actor.name)
      transition.familiesToPack field := by
  obtain ⟨hf, _⟩ := app.carriage
  have hsame : ∀ {family other : RouteFamily}, family ∈ app.plan.families →
      other ∈ app.plan.families → family.id = other.id → family = other := by
    intro family other hmem hother hid
    have heq := (hf.byId other.id family).mpr ⟨hmem, hid⟩
    rw [(hf.byId other.id other).mpr ⟨hother, rfl⟩, Option.some_inj] at heq
    exact heq.symm
  intro field hfield
  obtain ⟨leaf, hleaf, _, rfl⟩ | ⟨family, hmem, hbranch, rfl⟩ | ⟨own, hown, rfl⟩ :=
    ((mem_active hc ht hfields).mp hfield).kinds
  · exact .template (App.actor?_isSome.mp (hc.selected target ht leaf hleaf))
  · refine .digest hmem (fun hid => ?_) fun hid => (htransforms.branch family hmem hbranch).resolve_left hid
    obtain ⟨other, hother, heq, _, _, hleaves⟩ := htransforms.packed _ hid
    rw [hsame hmem hother heq.symm]
    exact hleaves
  · obtain ⟨hmem, hin⟩ := (hf.forActor _ _).mp hown
    refine .table hmem (Or.inr (or_iff_not_imp_left.mpr fun hsome => ?_))
    obtain ⟨x, hx, hnot⟩ := not_forall₂.mp hsome
    -- a missing leaf of the table is opened by the transition
    have hleaf := (hc.own target ht own hown).1 x (hf.table own hmem x hx)
    obtain hheld | ⟨other, hother, htable, hopened⟩ := htransforms.leaf x hleaf
    · exact absurd hheld hnot
    · have heq := (hf.forActor x other).mpr ⟨hother, hf.table other hother x htable⟩
      rw [(hf.forActor x own).mpr ⟨hmem, hf.table own hmem x hx⟩, Option.some_inj] at heq
      rw [← heq] at hopened
      exact ⟨target.name, hwrite, hne, transition, htransition, hopened⟩

end

/-! ## successors -/

section
variable {app : CompiledApp} {actor : ActorModel} {entry : EntryModel} {witnesses : WitnessPlan}
  {nodesOf : DeclId → List (CommitmentNode DeclId)} {active : List GeneratedField}
  (hc : Carriage app.toApp app.plan nodesOf) (ha : actor ∈ app.actors)
  (hentry : entry ∈ actor.entries)
  (hw : witnessPlan app.toApp app.plan actor entry = .ok witnesses)
  (hactive : generatedFieldsForActor app.toApp app.plan actor.name = .ok active)
include hc ha hentry hw hactive

/-- a template in scope is held by the actor or used by the entry -/
theorem available_of_scope {leaf : DeclId} (hselected : leaf ∈ app.actors.map (·.name))
    (hscope : hiddenTemplateName leaf ∈ scopeNames active witnesses) :
    CarriesTemplate app.toApp app.plan actor.name leaf ∨
      UsesTemplate app.toApp app.plan actor entry leaf := by
  obtain ⟨hf, _⟩ := app.carriage
  have hp := witnessPlan_ok hf hw
  obtain hscope | hscope := List.mem_append.mp hscope
  · obtain hscope | hscope := List.mem_append.mp hscope
    · obtain ⟨field, hfield, hname⟩ := List.mem_map.mp hscope
      obtain ⟨other, hleaf, _, rfl⟩ | ⟨family, _, _, rfl⟩ | ⟨family, _, rfl⟩ :=
        ((mem_active hc ha hactive).mp hfield).kinds
      · have hother := App.actor?_isSome.mp (hc.selected actor ha other hleaf)
        rw [app.templateName_inj hselected hother hname.symm]
        exact Or.inl ⟨active, _, hactive, hfield, rfl⟩
      · exact absurd hname.symm template_ne_digest
      · exact absurd hname.symm template_ne_table
    · obtain ⟨family, _, hname⟩ := List.mem_map.mp hscope
      exact absurd hname.symm template_ne_table
  · obtain ⟨spec, hspec, hlocal⟩ := List.mem_filterMap.mp hscope
    obtain ⟨hname, hused⟩ := hp.used spec hspec
    cases hid : spec.id with
    | linked id =>
      rw [hp.linked spec hspec id hid] at hlocal
      cases hlocal
    | inApp target =>
      obtain ⟨hfield, _⟩ | ⟨family, index, hmem, ⟨htable, _⟩, _, hsource⟩ :=
        hp.source spec hspec target hid
      · rw [hfield] at hlocal
        cases hlocal
      · rw [hsource] at hlocal
        dsimp only at hlocal
        split at hlocal
        · rename_i hknown
          have htarget : target = leaf := by
            rw [hname, hid] at hlocal
            exact app.templateName_inj (App.actor?_isSome.mp (table_selected hmem target htable))
              hselected (Option.some_inj.mp hlocal)
          rw [htarget] at htable hid
          rw [hid] at hused
          refine Or.inr ⟨hused, fun other hother hin _ => ?_⟩
          have heq := (hf.forActor leaf other).mpr ⟨hother, hf.table other hother leaf hin⟩
          rw [(hf.forActor leaf family).mpr ⟨hmem, hf.table family hmem leaf htable⟩,
            Option.some_inj] at heq
          rw [← heq]
          exact (mem_passedNames hc ha hentry hw hactive hmem).mp hknown
        · cases hlocal

/-- the fields of a reached layout are defined exactly when its templates are available -/
theorem targetPlan_defined {target : ActorModel} (ht : target ∈ app.actors)
    {layout : List GeneratedField}
    (hlayout : generatedFieldsForActor app.toApp app.plan target.name = .ok layout)
    {transition : CompilerRouteTransition} {sources : List (GeneratedField × GeneratedFieldSource)}
    (hsources : targetPlan app.toApp app.plan actor.name layout transition = .ok sources)
    (hreached : ∀ field ∈ layout, ReachedField app.toApp app.plan actor entry
      (nodesOf actor.name) transition.familiesToPack field) :
    sources.map Prod.fst = layout ∧ (layout.map (·.id)).Nodup ∧
      ((∀ source ∈ sources, FieldDefined app.toApp app.plan active witnesses source.1 source.2) ↔
        ∀ leaf, .template leaf ∈ layout.map (·.id) →
          CarriesTemplate app.toApp app.plan actor.name leaf ∨
            UsesTemplate app.toApp app.plan actor entry leaf) := by
  obtain ⟨active', hactive', hsources⟩ := bind_eq_ok.mp hsources
  rw [hactive] at hactive'
  obtain rfl := Except.ok.inj hactive'
  obtain ⟨⟨planned, left⟩, hplanned, hsources⟩ := bind_eq_ok.mp hsources
  have hnodup : (layout.map (·.id)).Nodup := by
    obtain ⟨fields, hfields, hnodup, _⟩ := hc.generated target ht
    rw [hlayout] at hfields
    rw [Except.ok.inj hfields]
    exact hnodup
  have hdigest : ∀ a family, .routeFamilyDigest a family ∈ layout.map (·.id) → a = app.name := by
    intro a family hin
    obtain ⟨field, hfield, hid⟩ := List.mem_map.mp hin
    cases hreached field hfield with
    | template _ => cases hid
    | digest _ _ _ =>
      injection hid with hid _
      exact hid.symm
    | table _ _ => cases hid
  have hok : planned = sources := by
    dsimp only at hsources
    cases left with
    | nil => exact Except.ok.inj hsources
    | cons _ _ => cases hsources
  obtain ⟨hmap, hall⟩ := generatedFieldSources_ok hnodup
    (fun a b family hin hin' => (hdigest a family hin).trans (hdigest b family hin').symm) hplanned
  rw [hok] at hmap hall
  refine ⟨hmap, hnodup, ⟨fun hdefined leaf hleaf => ?_, fun havailable source hsource => ?_⟩⟩
  · rw [← hmap, List.map_map] at hleaf
    obtain ⟨source, hsource, hid⟩ := List.mem_map.mp hleaf
    replace hid : source.1.id = .template leaf := hid
    obtain ⟨rest, hrest⟩ := hall source hsource
    obtain ⟨expr, hexpr, hscope, _⟩ := hdefined source hsource
    have hfield : source.1 ∈ layout := hmap ▸ List.mem_map_of_mem hsource
    have hname : source.1.name = hiddenTemplateName leaf ∧ leaf ∈ app.actors.map (·.name) := by
      generalize hreach : source.1 = field at hfield hid
      cases hreached field hfield with
      | template hselected =>
        injection hid with hid
        rw [← hid]
        exact ⟨rfl, hselected⟩
      | digest _ _ _ => cases hid
      | table _ _ => cases hid
    have hkind : source.2 = .templateField := by
      rw [hid] at hrest
      exact (Prod.mk.inj (Except.ok.inj hrest)).1.symm
    rw [hkind] at hexpr
    refine available_of_scope hc ha hentry hw hactive hname.2 (hscope _ ?_)
    rw [← Except.ok.inj hexpr, SilExpr.identifiers, hname.1]
    exact List.mem_singleton_self _
  · obtain ⟨rest, hrest⟩ := hall source hsource
    have hfield : source.1 ∈ layout := hmap ▸ List.mem_map_of_mem hsource
    refine fieldDefined_reached hc ha hentry hw hactive (hreached _ hfield) hrest fun leaf hid => ?_
    exact havailable leaf (hid ▸ List.mem_map_of_mem hfield)

end

section
variable {app : CompiledApp} {actor : ActorModel} {entry : EntryModel}
  {nodesOf : DeclId → List (CommitmentNode DeclId)} {active : List GeneratedField}
  (hc : Carriage app.toApp app.plan nodesOf) (ha : actor ∈ app.actors)
  (htransforms : ∀ source ∈ app.actors.map (·.name), ∀ target ∈ app.actors.map (·.name),
    ∀ transition, routeTransition app.plan source target = some transition →
      Transforms app.plan (nodesOf source) (nodesOf target) transition)
  (hactive : generatedFieldsForActor app.toApp app.plan actor.name = .ok active)
include hc ha htransforms hactive

theorem reached_fixed (hentry : entry ∈ actor.entries) {route : EntryRoute}
    (hroute : route ∈ entry.routes) {id : DeclId} {arity : RouteArity} {state : AuthoredExpr}
    (hsuccessor : route.successor = .constructed (.fixed id) arity state)
    {layout : List GeneratedField}
    (hlayout : generatedFieldsForActor app.toApp app.plan id = .ok layout)
    {transition : CompilerRouteTransition}
    (htransition : outputTransition app.plan actor.name id = .ok transition) :
    id ∈ app.actors.map (·.name) ∧ ∀ field ∈ layout, ReachedField app.toApp app.plan actor entry
      (nodesOf actor.name) transition.familiesToPack field := by
  have hv := validateEntry_ok (app.validated actor ha entry hentry)
  have htargets : routeTargetIds actor entry route = .ok [.inApp id] := by
    unfold routeTargetIds
    rw [hsuccessor]
  obtain ⟨id', hid, hselected⟩ := (hv.routes route hroute).selected _ _ _ hsuccessor _ htargets _
    (List.mem_singleton_self _)
  injection hid with hid
  rw [← hid] at hselected
  have hmem := App.actor?_isSome.mp hselected
  refine ⟨hmem, ?_⟩
  unfold outputTransition at htransition
  split at htransition
  · rename_i hself
    rw [hself, hactive] at hlayout
    rw [← Except.ok.inj hlayout, ← Except.ok.inj htransition]
    exact reached_self hc ha hactive fun _ _ _ => List.not_mem_nil
  · rename_i hne
    cases hsome : routeTransition app.plan actor.name id with
    | none => rw [hsome] at htransition; cases htransition
    | some found =>
      rw [hsome] at htransition
      rw [← Except.ok.inj htransition]
      obtain ⟨target, ht, rfl⟩ := List.mem_map.mp hmem
      refine reached_other hc ha ht hne ?_ hsome
        (htransforms _ (List.mem_map_of_mem ha) _ hmem _ hsome) hlayout
      refine List.mem_append_left _ (List.mem_append_left _ (List.mem_filter.mpr ⟨?_, ?_⟩))
      · exact List.mem_filterMap.mpr ⟨route, hroute, by rw [hsuccessor]⟩
      · exact Bool.and_eq_true_iff.mpr ⟨hselected, bne_iff_ne.mpr hne⟩

/-- a variant of a selector has the layout of the actor -/
theorem reached_variant {id : DeclId} (hmem : id ∈ app.actors.map (·.name))
    {transition : CompilerRouteTransition}
    (htransition : outputTransition app.plan actor.name id = .ok transition) :
    ∀ field ∈ active, ReachedField app.toApp app.plan actor entry
      (nodesOf actor.name) transition.familiesToPack field := by
  refine reached_self hc ha hactive fun family hfamily hbranch hpacked => ?_
  unfold outputTransition at htransition
  split at htransition
  · rw [← Except.ok.inj htransition] at hpacked
    cases hpacked
  · cases hsome : routeTransition app.plan actor.name id with
    | none => rw [hsome] at htransition; cases htransition
    | some found =>
      rw [hsome] at htransition
      rw [← Except.ok.inj htransition] at hpacked
      obtain ⟨hf, _⟩ := app.carriage
      obtain ⟨other, hother, heq, _, hnot, _⟩ :=
        (htransforms _ (List.mem_map_of_mem ha) _ hmem _ hsome).packed _ hpacked
      have hsame := (hf.byId family.id other).mpr ⟨hother, heq⟩
      rw [(hf.byId family.id family).mpr ⟨hfamily, rfl⟩, Option.some_inj] at hsame
      exact hnot (hsame ▸ hbranch)

end

theorem selector_targets {selector : TemplateSelector} {targets : List StaticActorId}
    (h : selector.routeActorIds = .ok targets) {first : DeclId}
    (hfirst : .inApp first ∈ selector.targets)
    (hinApp : ∀ target ∈ selector.targets, ∃ id, target = .inApp id) :
    (∃ id, .inApp id ∈ targets) ∧ ∀ target ∈ targets, target ∈ selector.targets := by
  unfold TemplateSelector.routeActorIds at h
  cases hindex : selector.fixedIndex with
  | none =>
    rw [hindex] at h
    rw [← Except.ok.inj h]
    exact ⟨⟨first, hfirst⟩, fun _ htarget => htarget⟩
  | some index =>
    rw [hindex] at h
    dsimp only at h
    cases hget : selector.targets[index]? with
    | none => rw [hget] at h; cases h
    | some target =>
      rw [hget] at h
      rw [← Except.ok.inj h]
      have hmem := List.mem_of_getElem? hget
      obtain ⟨id, rfl⟩ := hinApp target hmem
      refine ⟨⟨id, List.mem_singleton_self _⟩, fun other hother => ?_⟩
      rw [List.mem_singleton.mp hother]
      exact hmem

/-- the common layout of the targets of a constructed successor -/
theorem successor_layout {app : CompiledApp} {actor : ActorModel} {entry : EntryModel}
    {nodesOf : DeclId → List (CommitmentNode DeclId)}
    (hc : Carriage app.toApp app.plan nodesOf) (ha : actor ∈ app.actors)
    (htransforms : ∀ source ∈ app.actors.map (·.name), ∀ target ∈ app.actors.map (·.name),
      ∀ transition, routeTransition app.plan source target = some transition →
        Transforms app.plan (nodesOf source) (nodesOf target) transition)
    (hentry : entry ∈ actor.entries) {route : EntryRoute} (hroute : route ∈ entry.routes)
    {bound : BoundRouteActor} {arity : RouteArity} {state : AuthoredExpr}
    (hsuccessor : route.successor = .constructed bound arity state) {targets : List StaticActorId}
    (htargets : routeTargetIds actor entry route = .ok targets)
    {sources : List (GeneratedField × GeneratedFieldSource)}
    (hsources : successorTargetPlan app.toApp app.plan actor entry bound = .ok sources) :
    ∃ target ∈ app.actors, ∃ layout transition,
      generatedFieldsForActor app.toApp app.plan target.name = .ok layout ∧
      targetPlan app.toApp app.plan actor.name layout transition = .ok sources ∧
      (∀ field ∈ layout, ReachedField app.toApp app.plan actor entry (nodesOf actor.name)
        transition.familiesToPack field) ∧
      (∃ id, .inApp id ∈ targets) ∧
      ∀ id, .inApp id ∈ targets → generatedFieldsForActor app.toApp app.plan id = .ok layout := by
  obtain ⟨active, hactive, _⟩ := hc.generated actor ha
  unfold routeTargetIds at htargets
  rw [hsuccessor] at htargets
  cases bound with
  | fixed id =>
    obtain ⟨layout, hlayout, hplan⟩ := bind_eq_ok.mp hsources
    obtain ⟨transition, htransition, htarget⟩ := bind_eq_ok.mp hplan
    obtain ⟨hmem, hreached⟩ := reached_fixed hc ha htransforms hactive hentry hroute hsuccessor
      hlayout htransition
    obtain ⟨target, ht, rfl⟩ := List.mem_map.mp hmem
    rw [← Except.ok.inj htargets]
    refine ⟨target, ht, layout, transition, hlayout, htarget, hreached,
      ⟨_, List.mem_singleton_self _⟩, fun id hid => ?_⟩
    injection List.mem_singleton.mp hid with hid
    rw [hid]
    exact hlayout
  | «local» name =>
    unfold successorTargetPlan at hsources
    dsimp only at hsources htargets
    cases hselector : selectorForLocal entry name with
    | none => rw [hselector] at hsources; cases hsources
    | some selector =>
      rw [hselector] at hsources htargets
      dsimp only at hsources htargets
      have hmemSelector := List.mem_of_find?_eq_some hselector
      obtain ⟨variants, hvariants, hplan⟩ := bind_eq_ok.mp hsources
      have hlisted : ∀ id ∈ variants, .inApp id ∈ selector.targets := by
        intro id hid
        obtain ⟨target, htarget, hok⟩ := mem_of_mapM_ok hvariants hid
        cases target with
        | inApp other => exact Except.ok.inj hok ▸ htarget
        | linked _ => cases hok
      cases variants with
      | nil => cases hplan
      | cons first rest =>
        obtain ⟨layout, hlayout, hplan⟩ := bind_eq_ok.mp hplan
        obtain ⟨transition, htransition, hplan⟩ := bind_eq_ok.mp hplan
        obtain ⟨_, _, hplan⟩ := bind_eq_ok.mp hplan
        have hsame : ∀ id, .inApp id ∈ selector.targets →
            generatedFieldsForActor app.toApp app.plan id = .ok active := fun id hid =>
          (app.variants ha hentry (List.mem_of_find?_eq_some hselector) hid).2.trans hactive
        have hfirst := hlisted first List.mem_cons_self
        rw [hsame first hfirst] at hlayout
        obtain rfl := Except.ok.inj hlayout
        have hselected :=
          (app.variants ha hentry (List.mem_of_find?_eq_some hselector) hfirst).1
        obtain ⟨hsome, hsubset⟩ := selector_targets htargets hfirst fun target htarget => by
          obtain ⟨id, _, hok⟩ := mapM_ok_of_mem hvariants htarget
          cases target with
          | inApp other => exact ⟨other, rfl⟩
          | linked _ => cases hok
        exact ⟨actor, ha, active, transition, hactive, hplan,
          reached_variant hc ha htransforms hactive hselected htransition, hsome,
          fun id hid => hsame id (hsubset _ hid)⟩
  | linked _ _ => cases hsources
  | selector _ => cases hsources
  | expression _ => cases hsources

section
variable {app : CompiledApp} {actor : ActorModel} {entry : EntryModel} {witnesses : WitnessPlan}
  {route : EntryRoute} {bound : BoundRouteActor} {arity : RouteArity} {state : AuthoredExpr}
  {targets : List StaticActorId} {sources : List (GeneratedField × GeneratedFieldSource)}
  (ha : actor ∈ app.actors) (hentry : entry ∈ actor.entries)
  (hw : witnessPlan app.toApp app.plan actor entry = .ok witnesses) (hroute : route ∈ entry.routes)
  (hsuccessor : route.successor = .constructed bound arity state)
  (htargets : routeTargetIds actor entry route = .ok targets)
  (hsources : successorTargetPlan app.toApp app.plan actor entry bound = .ok sources)

theorem carriesTemplate_iff {id : DeclId} {layout : List GeneratedField}
    (hlayout : generatedFieldsForActor app.toApp app.plan id = .ok layout) {leaf : DeclId} :
    CarriesTemplate app.toApp app.plan id leaf ↔ .template leaf ∈ layout.map (·.id) := by
  constructor
  · intro ⟨fields, field, hfields, hfield, hleaf⟩
    rw [hlayout] at hfields
    rw [Except.ok.inj hfields, ← hleaf]
    exact List.mem_map_of_mem hfield
  · intro hleaf
    obtain ⟨field, hfield, heq⟩ := List.mem_map.mp hleaf
    exact ⟨layout, field, hlayout, hfield, heq⟩

include ha hentry hw hroute hsuccessor htargets hsources

/-- a defined successor has its templates -/
theorem available_of_defined
    (h : SuccessorDefined app.toApp app.plan actor witnesses targets sources) :
    TemplatesAvailable app.toApp app.plan actor entry targets := by
  obtain ⟨nodesOf, hc, htransforms⟩ := app.carriage_transforms
  obtain ⟨active, hactive, _⟩ := hc.generated actor ha
  obtain ⟨target, ht, layout, transition, hlayout, hplan, hreached, _, hall⟩ :=
    successor_layout hc ha htransforms hentry hroute hsuccessor htargets hsources
  obtain ⟨_, _, hdefined⟩ := targetPlan_defined hc ha hentry hw hactive ht hlayout hplan hreached
  intro id hid leaf hleaf
  exact hdefined.mp (h.defined active hactive) leaf ((carriesTemplate_iff (hall id hid)).mp hleaf)

theorem defined_of_available (h : TemplatesAvailable app.toApp app.plan actor entry targets) :
    SuccessorDefined app.toApp app.plan actor witnesses targets sources := by
  obtain ⟨nodesOf, hc, htransforms⟩ := app.carriage_transforms
  obtain ⟨active, hactive, _⟩ := hc.generated actor ha
  obtain ⟨target, ht, layout, transition, hlayout, hplan, hreached, ⟨first, hfirst⟩, hall⟩ :=
    successor_layout hc ha htransforms hentry hroute hsuccessor htargets hsources
  obtain ⟨hmap, hnodup, hdefined⟩ :=
    targetPlan_defined hc ha hentry hw hactive ht hlayout hplan hreached
  refine ⟨fun id hid => ?_, ?_, fun active' hactive' => ?_⟩
  · rw [hmap]
    exact hall id hid
  · rw [← hmap, List.map_map] at hnodup
    exact hnodup
  · rw [hactive] at hactive'
    rw [← Except.ok.inj hactive']
    exact hdefined.mpr fun leaf hleaf =>
      h first hfirst leaf ((carriesTemplate_iff (hall first hfirst)).mpr hleaf)

end

/-- **The generated fields of a constructed successor are defined exactly when its templates are
available.** -/
theorem successorDefined_iff (app : CompiledApp) (actor : ActorModel) (entry : EntryModel)
    (witnesses : WitnessPlan) (route : EntryRoute) (bound : BoundRouteActor) (arity : RouteArity)
    (state : AuthoredExpr) (targets : List StaticActorId)
    (sources : List (GeneratedField × GeneratedFieldSource)) (ha : actor ∈ app.actors)
    (hentry : entry ∈ actor.entries)
    (hw : witnessPlan app.toApp app.plan actor entry = .ok witnesses) (hroute : route ∈ entry.routes)
    (hsuccessor : route.successor = .constructed bound arity state)
    (htargets : routeTargetIds actor entry route = .ok targets)
    (hsources : successorTargetPlan app.toApp app.plan actor entry bound = .ok sources) :
    SuccessorDefined app.toApp app.plan actor witnesses targets sources ↔
      TemplatesAvailable app.toApp app.plan actor entry targets :=
  ⟨available_of_defined ha hentry hw hroute hsuccessor htargets hsources,
    defined_of_available ha hentry hw hroute hsuccessor htargets hsources⟩

/-! ## an opened family -/

def warden : ActorModel := ⟨"Warden", "Guard", [moveEntry "watch" (some "Rook") ["Warden"] _ rfl]⟩

def ruler : ActorModel :=
  ⟨"Ruler", "Seat", [moveEntry "appoint" none ["Warden", "Ruler"] _ rfl]⟩

/-- a ruler appoints a warden, who watches a piece -/
def wardenApp : App where
  name := "Game"
  actors := [warden, rook, king, pawn, ruler]
  distinct := by decide
  identifiers := by decide +kernel

theorem wardenApp_planned : (inferDirectRoutes wardenApp).isOk = true := by decide +kernel

theorem wardenApp_suffixes : validateGeneratedActorSuffixes wardenApp = .ok () := by decide +kernel

theorem wardenApp_validated : ∀ actor ∈ wardenApp.actors, ∀ entry ∈ actor.entries,
    validateEntry wardenApp actor entry = .ok () := by decide +kernel

def compiledWardenApp : CompiledApp :=
  wardenApp.compiled wardenApp_planned wardenApp_suffixes wardenApp_validated

/-- the ruler's only entry -/
def appoint : EntryModel := ruler.entries.get ⟨0, Nat.one_pos⟩

/-- the warden holds the templates of the pieces, which the ruler neither holds nor names -/
theorem successorDefined_ruler : ¬ ∀ (app : CompiledApp) (actor : ActorModel) (entry : EntryModel)
    (witnesses : WitnessPlan) (route : EntryRoute) (bound : BoundRouteActor) (arity : RouteArity)
    (state : AuthoredExpr) (targets : List StaticActorId)
    (sources : List (GeneratedField × GeneratedFieldSource)), actor ∈ app.actors →
      entry ∈ actor.entries → witnessPlan app.toApp app.plan actor entry = .ok witnesses →
      route ∈ entry.routes → route.successor = .constructed bound arity state →
      routeTargetIds actor entry route = .ok targets →
      successorTargetPlan app.toApp app.plan actor entry bound = .ok sources →
        SuccessorDefined app.toApp app.plan actor witnesses targets sources := by
  intro hall
  have hruler : ruler ∈ compiledWardenApp.actors := by
    show ruler ∈ wardenApp.actors
    unfold wardenApp
    simp only [List.mem_cons, true_or, or_true]
  have hentry : appoint ∈ ruler.entries := List.get_mem _ _
  obtain ⟨witnesses, hw⟩ := exists_ok_of_isOk (show (witnessPlan compiledWardenApp.toApp
    compiledWardenApp.plan ruler appoint).isOk = true by decide +kernel)
  obtain ⟨sources, hsources⟩ := exists_ok_of_isOk (show (successorTargetPlan
    compiledWardenApp.toApp compiledWardenApp.plan ruler appoint (.fixed "Warden")).isOk = true by
      decide +kernel)
  have hroute : ⟨0, "next", .constructed (.fixed "Warden") .one ⟨0⟩⟩ ∈ appoint.routes := by
    decide +kernel
  have hcarries : ∃ fields, generatedFieldsForActor compiledWardenApp.toApp compiledWardenApp.plan
      "Warden" = .ok fields ∧ .template "Rook" ∈ fields.map (·.id) := by
    refine ⟨_, eq_ok_get (show (generatedFieldsForActor compiledWardenApp.toApp
      compiledWardenApp.plan "Warden").toOption.isSome = true by decide +kernel), ?_⟩
    decide +kernel
  obtain ⟨fields, hfields, hleaf⟩ := hcarries
  obtain hheld | ⟨hused, _⟩ := available_of_defined hruler hentry hw hroute rfl rfl hsources
    (hall _ _ _ _ _ _ _ _ _ _ hruler hentry hw hroute rfl rfl hsources) "Warden"
    (List.mem_singleton_self _) "Rook" ((carriesTemplate_iff hfields).mpr hleaf)
  · have hnone : ∃ fields, generatedFieldsForActor compiledWardenApp.toApp compiledWardenApp.plan
        "Ruler" = .ok fields ∧ .template "Rook" ∉ fields.map (·.id) := by
      refine ⟨_, eq_ok_get (show (generatedFieldsForActor compiledWardenApp.toApp
        compiledWardenApp.plan "Ruler").toOption.isSome = true by decide +kernel), ?_⟩
      decide +kernel
    obtain ⟨fields, hfields, hnot⟩ := hnone
    exact hnot ((carriesTemplate_iff hfields).mp hheld)
  · have hnot : .inApp "Rook" ∉ (entryTemplateUses wardenApp "Ruler" appoint).reads ++
        (entryTemplateUses wardenApp "Ruler" appoint).writes := by decide +kernel
    exact hnot hused

/-- the king's successors hold its own table and its own gate -/
theorem successorDefined_king : ∃ witnesses sources,
    witnessPlan compiledScoutApp.toApp compiledScoutApp.plan king
      (king.entries.get ⟨0, Nat.one_pos⟩) = .ok witnesses ∧
    successorTargetPlan compiledScoutApp.toApp compiledScoutApp.plan king
      (king.entries.get ⟨0, Nat.one_pos⟩) (.fixed "Pawn") = .ok sources ∧
    (SuccessorDefined compiledScoutApp.toApp compiledScoutApp.plan king witnesses [.inApp "Pawn"]
        sources ↔
      TemplatesAvailable compiledScoutApp.toApp compiledScoutApp.plan king
        (king.entries.get ⟨0, Nat.one_pos⟩) [.inApp "Pawn"]) := by
  obtain ⟨witnesses, hw⟩ := exists_ok_of_isOk (show (witnessPlan compiledScoutApp.toApp
    compiledScoutApp.plan king (king.entries.get ⟨0, Nat.one_pos⟩)).isOk = true by decide +kernel)
  obtain ⟨sources, hsources⟩ := exists_ok_of_isOk (show (successorTargetPlan
    compiledScoutApp.toApp compiledScoutApp.plan king (king.entries.get ⟨0, Nat.one_pos⟩)
    (.fixed "Pawn")).isOk = true by decide +kernel)
  refine ⟨witnesses, sources, hw, hsources, ?_⟩
  have hroute : ⟨0, "next", .constructed (.fixed "Pawn") .one ⟨0⟩⟩ ∈
      (king.entries.get ⟨0, Nat.one_pos⟩).routes := by decide +kernel
  exact successorDefined_iff compiledScoutApp king _ witnesses _ _ _ _ _ sources
    (List.mem_cons_of_mem _ (List.mem_cons_of_mem _ List.mem_cons_self)) (List.get_mem _ _) hw hroute
    rfl rfl hsources

end Argent.Codegen
