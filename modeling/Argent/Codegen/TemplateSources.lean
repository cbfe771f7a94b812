import Argent.Base.Blocks
import Argent.Codegen.Templates

/-!
# Sources of templates

A template witness is a slice of a route table or a field of the active state.

* `mem_reads`, `mem_writes`    the used templates, by the interactions of the entry;
* `mem_opened`                 the tables that the outputs of an entry open;
* `templateSources_real`       **every source is real exactly when the slices reach their tables**;
* `templateSources_scout`      a slice of a table that is out of scope.
-/

set_option linter.unusedSectionVars false

namespace Argent.Codegen
open Argent.Model Argent.Sil Argent.Routing Argent.Fallible

/-! ## uses -/

section
variable {app : App} {actor : ActorModel} {entry : EntryModel} {target : DeclId}

theorem current_mem_groups : entry.current ∈ entry.groups := List.mem_cons_self

theorem mem_reads (h : .inApp target ∈ (entryTemplateUses app actor.name entry).reads) :
    ∃ group ∈ entry.groups, target ∈ selectedTargets app group.inputs ∧
      ¬ app.isSingletonActorSelfTarget actor.name target = true := by
  obtain h | h := List.mem_append.mp h
  · obtain ⟨hmem, hreads⟩ := List.mem_filter.mp h
    obtain ⟨group, hgroup, hmem⟩ := List.mem_flatMap.mp hmem
    obtain ⟨item, hitem, htarget⟩ := List.mem_flatMap.mp hmem
    obtain ⟨hsome, hself⟩ := Bool.and_eq_true_iff.mp hreads
    refine ⟨group, hgroup, mem_selectedTargets.mpr ⟨App.actor?_isSome.mp hsome, item, hitem,
      htarget⟩, fun hsingle => ?_⟩
    obtain ⟨hnames, heq⟩ := Bool.and_eq_true_iff.mp hsingle
    have hlen := congrArg List.length (of_decide_eq_true hnames)
    rw [List.length_map, List.length_singleton] at hlen
    rw [hlen, of_decide_eq_true heq, beq_self_eq_true, beq_self_eq_true] at hself
    cases hself
  · obtain ⟨_, hlinked⟩ := List.mem_filter.mp h
    cases hlinked

theorem mem_writes (hv : EntryValidated app actor entry)
    (h : .inApp target ∈ (entryTemplateUses app actor.name entry).writes) :
    actor.name ≠ target ∧ ∃ group ∈ entry.groups, target ∈ selectedTargets app group.outputs := by
  have hself : ∀ {id}, writesTemplate app actor.name (.inApp id) = true →
      actor.name ≠ id ∧ id ∈ app.actors.map (·.name) := by
    intro id hid
    obtain ⟨hsome, hne⟩ := Bool.and_eq_true_iff.mp hid
    exact ⟨(bne_iff_ne.mp hne).symm, App.actor?_isSome.mp hsome⟩
  obtain h | h := List.mem_append.mp h
  · obtain h | h := List.mem_append.mp h
    · obtain ⟨hmem, hwrites⟩ := List.mem_filter.mp h
      obtain ⟨hne, hselected⟩ := hself hwrites
      obtain ⟨route, hroute, hfixed⟩ := List.mem_filterMap.mp hmem
      obtain ⟨⟨targets, output, htargets, houtput, hallowed, _⟩, _⟩ := hv.routes route hroute
      refine ⟨hne, _, current_mem_groups, mem_selectedTargets.mpr ⟨hselected, output,
        List.mem_of_find?_eq_some houtput, hallowed _ ?_⟩⟩
      cases hsuccessor : route.successor with
      | exactSelf => rw [hsuccessor] at hfixed; cases hfixed
      | constructed bound arity state =>
        rw [hsuccessor] at hfixed
        unfold routeTargetIds at htargets
        rw [hsuccessor] at htargets
        cases bound with
        | fixed id =>
          rw [← Except.ok.inj htargets, ← Option.some_inj.mp hfixed]
          exact List.mem_singleton_self _
        | linked _ _ | selector _ | «local» _ | expression _ => cases hfixed
    · obtain ⟨hmem, hwrites⟩ := List.mem_filter.mp h
      obtain ⟨hne, hselected⟩ := hself hwrites
      obtain ⟨group, hgroup, hmem⟩ := List.mem_flatMap.mp hmem
      obtain ⟨item, hitem, htarget⟩ := List.mem_flatMap.mp hmem
      exact ⟨hne, group, List.mem_cons_of_mem _ hgroup,
        mem_selectedTargets.mpr ⟨hselected, item, hitem, htarget⟩⟩
  · obtain ⟨_, hlinked⟩ := List.mem_filter.mp h
    cases hlinked

theorem linked_imported {id : LinkedActorId}
    (h : .linked id ∈ (entryTemplateUses app actor.name entry).reads ++
      (entryTemplateUses app actor.name entry).writes) : id ∈ importedTemplates entry := by
  have hmem : ∃ group ∈ entry.foreign,
      .linked id ∈ sectionActors group.inputs ++ sectionActors group.outputs := by
    obtain h | h := List.mem_append.mp h <;> obtain h | h := List.mem_append.mp h
    · obtain ⟨_, hreads⟩ := List.mem_filter.mp h
      cases hreads
    · obtain ⟨hmem, _⟩ := List.mem_filter.mp h
      obtain ⟨group, hgroup, hmem⟩ := List.mem_flatMap.mp hmem
      exact ⟨group, hgroup, List.mem_append_left _ hmem⟩
    · obtain h | h := List.mem_append.mp h <;>
      · obtain ⟨_, hwrites⟩ := List.mem_filter.mp h
        cases hwrites
    · obtain ⟨hmem, _⟩ := List.mem_filter.mp h
      obtain ⟨group, hgroup, hmem⟩ := List.mem_flatMap.mp hmem
      exact ⟨group, hgroup, List.mem_append_right _ hmem⟩
  obtain ⟨group, hgroup, hmem⟩ := hmem
  refine List.mem_map.mpr ⟨toLex (id.app, id.actor), BTreeSet.mem_ofList.mpr ?_, rfl⟩
  exact List.mem_flatMap.mpr ⟨group, hgroup, List.mem_filterMap.mpr ⟨_, hmem, rfl⟩⟩

theorem mem_requiredTemplates {uses : ActorTemplateUses} {id : StaticActorId}
    (h : id ∈ requiredTemplates app uses) : id ∈ uses.reads ++ uses.writes := by
  obtain h | h := List.mem_append.mp h
  · exact of_decide_eq_true (List.mem_filter.mp h).2
  · obtain ⟨key, hkey, rfl⟩ := List.mem_map.mp h
    obtain ⟨target, htarget, hlinked⟩ := List.mem_filterMap.mp (BTreeSet.mem_ofList.mp hkey)
    cases target with
    | inApp _ => cases hlinked
    | linked id =>
      rw [← Option.some_inj.mp hlinked]
      exact htarget

theorem inApp_mem_requiredTemplates {uses : ActorTemplateUses}
    (hselected : target ∈ app.actors.map (·.name))
    (h : .inApp target ∈ uses.reads ++ uses.writes) :
    .inApp target ∈ requiredTemplates app uses := by
  obtain ⟨model, hmodel, rfl⟩ := List.mem_map.mp hselected
  exact List.mem_append_left _ (List.mem_filter.mpr
    ⟨List.mem_map_of_mem hmodel, decide_eq_true h⟩)

end

/-! ## tables -/

theorem tableBytes_slice {template : DeclId → Bytes} (h : ∀ a, (template a).length = 32)
    {family : RouteFamily} {target : DeclId} {index : Nat}
    (hindex : family.tableActors[index]? = some target) :
    ((tableBytes template family).drop (index * 32)).take 32 = template target :=
  Blocks.take_drop_flatMap (fun actor _ => h actor) hindex

section
variable {app : App} {plan : CompilerRoutePlan} {actor : ActorModel} {entry : EntryModel}

theorem mem_opened {opened : List RouteFamily} (hf : Families app plan)
    (h : openedFamilies plan actor.name (entryTemplateUses app actor.name entry) = .ok opened)
    {family : RouteFamily} (hmem : family ∈ plan.families) :
    family.id ∈ opened.map (·.id) ↔ OpensFamily app plan actor entry family := by
  obtain ⟨opens, hopens, h⟩ := bind_eq_ok.mp h
  rw [← pure_eq_ok.mp h]
  constructor
  · intro hid
    obtain ⟨found, hfound, hid⟩ := List.mem_map.mp hid
    obtain ⟨part, hpart, hfound⟩ := List.mem_flatten.mp hfound
    obtain ⟨target, htarget, hok⟩ := mem_of_mapM_ok hopens hpart
    unfold openedBy at hok
    cases target with
    | linked _ => rw [← Except.ok.inj hok] at hfound; cases hfound
    | inApp write =>
      dsimp only at hok
      by_cases hself : write = actor.name
      · rw [if_pos hself] at hok
        rw [← Except.ok.inj hok] at hfound
        cases hfound
      · rw [if_neg hself] at hok
        cases htransition : routeTransition plan actor.name write with
        | none => rw [htransition] at hok; cases hok
        | some transition =>
          rw [htransition] at hok
          obtain ⟨id', hid', hlookup⟩ := mem_of_mapM_ok hok hfound
          refine ⟨write, htarget, hself, transition, htransition, ?_⟩
          cases hfamily : routeFamily plan id' with
          | none => rw [hfamily] at hlookup; cases hlookup
          | some other =>
            rw [hfamily] at hlookup
            rw [← hid, ← Except.ok.inj hlookup, ((hf.byId _ _).mp hfamily).2]
            exact hid'
  · intro ⟨write, hwrite, hself, transition, htransition, hid⟩
    obtain ⟨part, hpart, hok⟩ := mapM_ok_of_mem hopens hwrite
    unfold openedBy at hok
    dsimp only at hok
    rw [if_neg hself, htransition] at hok
    obtain ⟨found, hfound, hlookup⟩ := mapM_ok_of_mem hok hid
    rw [(hf.byId _ _).mpr ⟨hmem, rfl⟩] at hlookup
    refine List.mem_map.mpr ⟨found, List.mem_flatten.mpr ⟨part, hpart, hfound⟩, ?_⟩
    rw [Except.ok.inj hlookup]

/-- a family is opened by the outputs of the entry, or belongs to the state of the actor and its
table contains the target -/
def Sliced (app : App) (plan : CompilerRoutePlan) (actor : ActorModel) (entry : EntryModel)
    (family : RouteFamily) (target : DeclId) : Prop :=
  target ∈ family.tableActors ∧
    (OpensFamily app plan actor entry family ∨ family.state = actor.state)

/-- the parts of a witness plan -/
structure PlannedWitnesses (app : App) (plan : CompilerRoutePlan) (actor : ActorModel)
    (entry : EntryModel) (witnesses : WitnessPlan) : Prop where
  families : ∀ family ∈ plan.families,
    family ∈ witnesses.families ↔ OpensFamily app plan actor entry family
  used : ∀ spec ∈ witnesses.templates, spec.actor = staticActorReference spec.id ∧
    spec.id ∈ (entryTemplateUses app actor.name entry).reads ++
      (entryTemplateUses app actor.name entry).writes
  complete : ∀ id ∈ requiredTemplates app (entryTemplateUses app actor.name entry),
    ∃ spec ∈ witnesses.templates, spec.id = id
  linked : ∀ spec ∈ witnesses.templates, ∀ id, spec.id = .linked id → spec.source = .field
  /-- the source of an in-app template -/
  source : ∀ spec ∈ witnesses.templates, ∀ target, spec.id = .inApp target →
    (spec.source = .field ∧ ∀ family ∈ plan.families, target ∈ family.actors →
        ¬ Sliced app plan actor entry family target) ∨
      ∃ family index, family ∈ plan.families ∧ Sliced app plan actor entry family target ∧
        family.tableActors[index]? = some target ∧
        spec.source = .familyTable family.id (index * 32)

theorem templateSource_cases {opened : List RouteFamily} (hf : Families app plan)
    (h : openedFamilies plan actor.name (entryTemplateUses app actor.name entry) = .ok opened)
    (target : DeclId) :
    (templateSource plan actor.state opened (.inApp target) = .field ∧
        ∀ family ∈ plan.families, target ∈ family.actors →
          ¬ Sliced app plan actor entry family target) ∨
      ∃ family index, family ∈ plan.families ∧ Sliced app plan actor entry family target ∧
        family.tableActors[index]? = some target ∧
        templateSource plan actor.state opened (.inApp target) =
          .familyTable family.id (index * 32) := by
  unfold templateSource
  dsimp only
  cases hfamily : routeFamilyForActor plan target with
  | none =>
    refine Or.inl ⟨rfl, fun family hmem hin => ?_⟩
    rw [(hf.forActor target family).mpr ⟨hmem, hin⟩] at hfamily
    cases hfamily
  | some family =>
    obtain ⟨hmem, hactor⟩ := (hf.forActor target family).mp hfamily
    have hunique : ∀ other ∈ plan.families, target ∈ other.actors → other = family := by
      intro other hother hin
      rw [(hf.forActor target other).mpr ⟨hother, hin⟩, Option.some_inj] at hfamily
      exact hfamily
    have hopened := mem_opened hf h hmem
    dsimp only
    by_cases hcond : family.id ∉ opened.map (·.id) ∧
        (family.state ≠ actor.state ∨ target ∉ family.tableActors)
    · rw [if_pos hcond]
      refine Or.inl ⟨rfl, fun other hother hin ⟨htable, hreach⟩ => ?_⟩
      rw [hunique other hother hin] at htable hreach
      obtain hopens | hstate := hreach
      · exact hcond.1 (hopened.mpr hopens)
      · exact hcond.2.elim (fun hne => hne hstate) fun hnot => hnot htable
    · rw [if_neg hcond]
      cases hindex : family.tableActors.idxOf? target with
      | none =>
        refine Or.inl ⟨rfl, fun other hother hin ⟨htable, _⟩ => ?_⟩
        rw [hunique other hother hin] at htable
        rw [List.idxOf?_eq_none_iff] at hindex
        exact hindex htable
      | some index =>
        have hget : family.tableActors[index]? = some target := by
          rw [List.idxOf?, List.findIdx?_eq_some_iff_getElem] at hindex
          obtain ⟨hlt, heq, _⟩ := hindex
          rw [List.getElem?_eq_getElem hlt, eq_of_beq heq]
        refine Or.inr ⟨family, index, hmem, ⟨List.mem_of_getElem? hget, ?_⟩, hget, rfl⟩
        by_cases hopens : family.id ∈ opened.map (·.id)
        · exact Or.inl (hopened.mp hopens)
        · refine Or.inr (not_not.mp fun hne => hcond ⟨hopens, Or.inl hne⟩)

theorem witnessPlan_ok (hf : Families app plan) {witnesses : WitnessPlan}
    (h : witnessPlan app plan actor entry = .ok witnesses) :
    PlannedWitnesses app plan actor entry witnesses := by
  obtain ⟨templates, htemplates, h⟩ := bind_eq_ok.mp h
  obtain ⟨opened, hopened, h⟩ := bind_eq_ok.mp h
  obtain ⟨_, _, htemplates⟩ := bind_eq_ok.mp htemplates
  obtain ⟨opened', hopened', htemplates⟩ := bind_eq_ok.mp htemplates
  rw [hopened] at hopened'
  obtain rfl := Except.ok.inj hopened'
  rw [← pure_eq_ok.mp h]
  have hspec : ∀ spec ∈ templates, ∃ id ∈ requiredTemplates app
      (entryTemplateUses app actor.name entry), spec.id = id ∧
        spec.actor = staticActorReference id ∧
        spec.source = templateSource plan actor.state opened id := by
    intro spec hmem
    rw [← pure_eq_ok.mp htemplates] at hmem
    obtain ⟨id, hid, rfl⟩ := List.mem_map.mp hmem
    exact ⟨id, hid, rfl, rfl, rfl⟩
  refine ⟨fun family hmem => ?_, fun spec hmem => ?_, fun id hid => ?_, fun spec hmem id hid => ?_,
    fun spec hmem target hid => ?_⟩
  · rw [← mem_opened hf hopened hmem, List.mem_filterMap]
    constructor
    · intro ⟨id, hid, hfamily⟩
      rw [← ((hf.byId _ _).mp hfamily).2] at hid
      exact BTreeSet.mem_ofList.mp hid
    · intro hid
      exact ⟨family.id, BTreeSet.mem_ofList.mpr hid, (hf.byId _ _).mpr ⟨hmem, rfl⟩⟩
  · obtain ⟨id, hid, rfl, hactor, _⟩ := hspec spec hmem
    exact ⟨hactor, mem_requiredTemplates hid⟩
  · rw [← pure_eq_ok.mp htemplates]
    exact ⟨_, List.mem_map_of_mem hid, rfl⟩
  · obtain ⟨_, _, rfl, _, hsource⟩ := hspec spec hmem
    rw [hsource, hid]
    rfl
  · obtain ⟨_, _, rfl, _, hsource⟩ := hspec spec hmem
    rw [hsource, hid]
    exact templateSource_cases hf hopened target

end

/-! ## fields -/

section
variable {app : App} {plan : CompilerRoutePlan} {actor : ActorModel} {entry : EntryModel}
  {nodesOf : DeclId → List (CommitmentNode DeclId)} (hf : Families app plan)
  (hc : Carriage app plan nodesOf) (ha : actor ∈ app.actors)
include hf hc ha

/-- the actor carries a table only as a member of the family -/
theorem carriesTable_iff {family : RouteFamily} (hmem : family ∈ plan.families) :
    CarriesField app plan actor (routeTableField app family) ↔ actor.name ∈ family.actors := by
  obtain ⟨fields, hfields, _, hspec⟩ := hc.generated actor ha
  constructor
  · intro ⟨fields', hfields', hfield⟩
    rw [hfields] at hfields'
    rw [← Except.ok.inj hfields', hspec] at hfield
    generalize hname : routeTableField app family = field at hfield
    cases hfield with
    | @template leaf _ _ _ htemplate =>
      unfold templateField at htemplate
      cases hactor : app.actor? leaf with
      | none => rw [hactor] at htemplate; cases htemplate
      | some model =>
        rw [hactor, ← hname] at htemplate
        cases htemplate
    | digest _ _ => cases hname
    | @table own hown =>
      obtain ⟨hown, hin⟩ := (hf.forActor _ _).mp hown
      have hid : own.id = family.id := by
        have := congrArg GeneratedField.id hname
        injection this with _ hid _
        exact hid.symm
      have hown' := (hf.byId family.id own).mpr ⟨hown, hid⟩
      rw [(hf.byId family.id family).mpr ⟨hmem, rfl⟩, Option.some_inj] at hown'
      rwa [hown']
  · intro hin
    exact ⟨fields, hfields, (hspec _).mpr (.table ((hf.forActor _ _).mpr ⟨hmem, hin⟩))⟩

/-- a carried leaf outside the own table is a template field -/
theorem carriesTemplate {target : DeclId} (hleaf : .leaf target ∈ nodesOf actor.name)
    (hout : OutsideTable plan actor.name target) : ∃ field, CarriesField app plan actor field ∧
      field.id = .template target ∧ field.name = hiddenTemplateName target := by
  obtain ⟨fields, hfields, _, hspec⟩ := hc.generated actor ha
  obtain ⟨model, hmodel⟩ := Option.isSome_iff_exists.mp (hc.selected actor ha target hleaf)
  have hfield : templateField app target =
      .ok ⟨.template target, hiddenTemplateName target, ⟨"byte", 32⟩⟩ := by
    unfold templateField
    rw [hmodel, ← (App.actor?_eq_some.mp hmodel).2]
  exact ⟨_, ⟨fields, hfields, (hspec _).mpr (.template hleaf hout hfield)⟩, rfl, rfl⟩

theorem used_leaf (hentry : entry ∈ actor.entries) (hv : EntryValidated app actor entry)
    {target : DeclId} (hused : .inApp target ∈ (entryTemplateUses app actor.name entry).reads ++
      (entryTemplateUses app actor.name entry).writes)
    (hopens : ∀ family ∈ plan.families, target ∈ family.tableActors →
      ¬ OpensFamily app plan actor entry family) : .leaf target ∈ nodesOf actor.name := by
  obtain hread | hwrite := List.mem_append.mp hused
  · obtain ⟨group, hgroup, htarget, hself⟩ := mem_reads hread
    exact hc.consumed actor ha entry hentry group hgroup target htarget hself
  · obtain ⟨hne, group, hgroup, htarget⟩ := mem_writes hv hwrite
    obtain hleaf | ⟨family, hmem, htable, hbranch⟩ :=
      hc.emitted actor ha entry hentry group hgroup target htarget hne
    · exact hleaf
    · -- the target carries its own leaf, so the transition opens the branch
      obtain ⟨transition, htransition, htransforms⟩ :=
        hc.transition actor ha entry hentry group hgroup target htarget
      obtain ⟨model, hmodel, rfl⟩ := List.mem_map.mp (mem_selectedTargets.mp htarget).1
      have hactors := hf.table family hmem _ htable
      have hown := (hf.forActor _ _).mpr ⟨hmem, hactors⟩
      obtain hleaf | ⟨other, hother, htable', hopened⟩ :=
        htransforms.leaf _ ((hc.own model hmodel family hown).1 _ hactors)
      · exact hleaf
      · have heq := (hf.forActor _ _).mpr ⟨hother, hf.table other hother _ htable'⟩
        rw [hown, Option.some_inj] at heq
        rw [← heq] at hopened
        exact absurd ⟨_, hwrite, Ne.symm hne, transition, htransition, hopened⟩
          (hopens family hmem htable)

end

section
variable {app : CompiledApp} {actor : ActorModel} {entry : EntryModel} {witnesses : WitnessPlan}
  (ha : actor ∈ app.actors) (hentry : entry ∈ actor.entries)
  (h : witnessPlan app.toApp app.plan actor entry = .ok witnesses)
include ha h

theorem tableInScope_iff {family : RouteFamily} (hmem : family ∈ app.plan.families) :
    TableInScope app.toApp app.plan actor entry family ↔
      actor.name ∈ family.actors ∨ OpensFamily app.toApp app.plan actor entry family := by
  obtain ⟨hf, _, hc⟩ := app.carriage
  refine or_congr (carriesTable_iff hf hc ha hmem) ?_
  rw [← (witnessPlan_ok hf h).families family hmem]
  refine ⟨fun ⟨witnesses', h', hin⟩ => ?_, fun hin => ⟨witnesses, h, hin⟩⟩
  rw [h] at h'
  rwa [Except.ok.inj h']

/-- real slices reach their tables -/
theorem tablesReached_of_real
    (hreal : ∀ spec ∈ witnesses.templates, RealSource app.toApp app.plan actor entry spec) :
    TablesReached app.toApp app.plan actor entry := by
  obtain ⟨hf, _, _⟩ := app.carriage
  have hp := witnessPlan_ok hf h
  intro target hused family hmem htable hstate
  have hactors := hf.table family hmem target htable
  obtain ⟨model, hmodel, hname, _⟩ := hf.members family hmem target hactors
  obtain ⟨spec, hspec, hid⟩ := hp.complete _ (inApp_mem_requiredTemplates
    (hname ▸ List.mem_map_of_mem hmodel) hused)
  obtain ⟨_, hnot⟩ | ⟨other, index, hother, _, hindex, hsource⟩ := hp.source spec hspec target hid
  · exact absurd ⟨htable, Or.inr hstate⟩ (hnot family hmem hactors)
  · have hsame : other = family := by
      have heq := (hf.forActor _ _).mpr
        ⟨hother, hf.table other hother _ (List.mem_of_getElem? hindex)⟩
      rw [(hf.forActor _ _).mpr ⟨hmem, hactors⟩, Option.some_inj] at heq
      exact heq.symm
    have hspecReal := hreal spec hspec
    unfold RealSource at hspecReal
    rw [hsource] at hspecReal
    obtain ⟨found, hfound, hfid, hin, _⟩ := hspecReal
    have heq := (hf.byId other.id found).mpr ⟨hfound, hfid⟩
    rw [(hf.byId other.id other).mpr ⟨hother, rfl⟩, Option.some_inj] at heq
    rw [← heq, hsame] at hin
    exact (tableInScope_iff ha h hmem).mp hin

include hentry

/-- when the slices reach their tables, every source is real -/
theorem real_of_tablesReached (hreached : TablesReached app.toApp app.plan actor entry)
    (spec : TemplateWitnessSpec) (hspec : spec ∈ witnesses.templates) :
    RealSource app.toApp app.plan actor entry spec := by
  obtain ⟨hf, nodesOf, hc⟩ := app.carriage
  have hv := validateEntry_ok (app.validated actor ha entry hentry)
  have hp := witnessPlan_ok hf h
  obtain ⟨hname, hused⟩ := hp.used spec hspec
  unfold RealSource
  cases hid : spec.id with
  | linked id =>
    rw [hid] at hused hname
    rw [hp.linked spec hspec id hid]
    have himported := linked_imported hused
    refine Or.inr (Or.inl ⟨id, rfl, himported, ?_, by rw [hname]; rfl⟩)
    exact List.mem_flatMap.mpr ⟨entry, hentry, himported⟩
  | inApp target =>
    rw [hid] at hused hname
    obtain ⟨hsource, hnot⟩ | ⟨family, index, hmem, ⟨htable, hreach⟩, hindex, hsource⟩ :=
      hp.source spec hspec target hid
    · rw [hsource]
      have hleaf := used_leaf hf hc ha hentry hv hused fun family hmem htable hopens =>
        hnot family hmem (hf.table family hmem _ htable) ⟨htable, Or.inl hopens⟩
      have hout : OutsideTable app.plan actor.name target := by
        intro own hown htable
        obtain ⟨hmem, hin⟩ := (hf.forActor _ _).mp hown
        obtain ⟨model, hmodel, hmname, hstate⟩ := hf.members own hmem _ hin
        have heq := List.inj_on_of_nodup_map app.distinct hmodel ha hmname
        exact hnot own hmem (hf.table own hmem _ htable) ⟨htable, Or.inr (heq ▸ hstate).symm⟩
      obtain ⟨field, hfield, hfid, hfname⟩ := carriesTemplate hf hc ha hleaf hout
      exact Or.inr (Or.inr ⟨target, field, rfl, hfield, hfid, by rw [hfname, hname]; rfl⟩)
    · rw [hsource]
      refine ⟨family, hmem, rfl, (tableInScope_iff ha h hmem).mpr ?_, target, rfl,
        fun template hlen => tableBytes_slice hlen hindex⟩
      obtain hopens | hstate := hreach
      · exact Or.inr hopens
      · exact hreached target hused family hmem htable hstate

end

/-- **Every template source is real exactly when the slices reach their tables.** -/
theorem templateSources_real (app : CompiledApp) (actor : ActorModel) (entry : EntryModel)
    (witnesses : WitnessPlan) (ha : actor ∈ app.actors) (hentry : entry ∈ actor.entries)
    (h : witnessPlan app.toApp app.plan actor entry = .ok witnesses) :
    (∀ spec ∈ witnesses.templates, RealSource app.toApp app.plan actor entry spec) ↔
      TablesReached app.toApp app.plan actor entry :=
  ⟨tablesReached_of_real ha h, fun hreached spec hspec =>
    real_of_tablesReached ha hentry h hreached spec hspec⟩

/-! ## a watched family -/

/-- become one of some actors -/
def becomeOneOf : List DeclId → AuthoredEntryStatement
  | [] => .sil 0
  | [id] => .become [⟨0, "next", .constructed (.fixed id) .one ⟨0⟩⟩]
  | id :: ids => .ifElse ⟨0⟩ (.become [⟨0, "next", .constructed (.fixed id) .one ⟨0⟩⟩])
      (some (becomeOneOf ids))

/-- a section of one singleton -/
def oneInteraction (handle : String) (targets : List DeclId) : InteractionSection :=
  ⟨[⟨handle, .static (targets.map .inApp), .one, .fromStart 0⟩], rfl⟩

/-- an entry that emits one of some actors and may consume another -/
def moveEntry (name : String) (watched : Option DeclId) (emits : List DeclId)
    (analysis : RouteAnalysis)
    (analyzed : analyzeAuthoredEntryRoutes [becomeOneOf emits] = .ok analysis) :
    EntryModel where
  name := name
  kind := .leader
  current := {
    covenant := .current
    inputs := match watched with
      | none => .empty
      | some id => oneInteraction "watched" [id]
    outputs := oneInteraction "next" emits }
  foreign := []
  templateSelectors := []
  body := [becomeOneOf emits]
  analysis := analysis
  analyzed := analyzed
  delegateEmits := nofun

def scout : ActorModel := ⟨"Scout", "Piece", [moveEntry "look" (some "Rook") ["Scout"] _ rfl]⟩

def king : ActorModel := ⟨"King", "Piece", [moveEntry "move" none ["Rook", "Pawn"] _ rfl]⟩

def rook : ActorModel := ⟨"Rook", "Piece", [moveEntry "move" none ["King"] _ rfl]⟩

def pawn : ActorModel := ⟨"Pawn", "Piece", [moveEntry "move" none ["Rook"] _ rfl]⟩

/-- a scout of the same state looks at one of three pieces in a cycle -/
def scoutApp : App where
  name := "Game"
  actors := [scout, rook, king, pawn]
  distinct := by decide
  identifiers := by decide +kernel

theorem scoutApp_planned : (inferDirectRoutes scoutApp).isOk = true := by decide +kernel

theorem scoutApp_suffixes : validateGeneratedActorSuffixes scoutApp = .ok () := by decide +kernel

theorem scoutApp_validated : ∀ actor ∈ scoutApp.actors, ∀ entry ∈ actor.entries,
    validateEntry scoutApp actor entry = .ok () := by decide +kernel

def compiledScoutApp : CompiledApp :=
  scoutApp.compiled scoutApp_planned scoutApp_suffixes scoutApp_validated

/-- the scout's entry takes a slice of a table that it neither carries nor passes -/
theorem templateSources_scout : ¬ ∀ (app : CompiledApp) (actor : ActorModel) (entry : EntryModel)
    (witnesses : WitnessPlan), actor ∈ app.actors → entry ∈ actor.entries →
      witnessPlan app.toApp app.plan actor entry = .ok witnesses →
        ∀ spec ∈ witnesses.templates, RealSource app.toApp app.plan actor entry spec := by
  intro hall
  have hscout : scout ∈ compiledScoutApp.actors := List.mem_cons_self
  have hlook : scout.entries.get ⟨0, Nat.one_pos⟩ ∈ scout.entries := List.get_mem _ _
  obtain ⟨witnesses, h⟩ := exists_ok_of_isOk (show (witnessPlan compiledScoutApp.toApp
    compiledScoutApp.plan scout (scout.entries.get ⟨0, Nat.one_pos⟩)).isOk = true by
      decide +kernel)
  have hreached := tablesReached_of_real hscout h (hall _ _ _ _ hscout hlook h)
  have huses : .inApp "Rook" ∈ (entryTemplateUses scoutApp "Scout"
      (scout.entries.get ⟨0, Nat.one_pos⟩)).reads := by decide +kernel
  have hwrites : (entryTemplateUses scoutApp "Scout"
      (scout.entries.get ⟨0, Nat.one_pos⟩)).writes = [] := by decide +kernel
  have hfamily : ∃ family ∈ compiledScoutApp.plan.families, "Rook" ∈ family.tableActors ∧
      family.state = "Piece" ∧ "Scout" ∉ family.actors := by decide +kernel
  obtain ⟨family, hmem, htable, hstate, hout⟩ := hfamily
  obtain hin | ⟨_, hwrite, _⟩ := hreached "Rook" (List.mem_append_left _ huses) family hmem htable
    hstate
  · exact hout hin
  · have hnil : _ ∈ ([] : List StaticActorId) := hwrites ▸ hwrite
    cases hnil

/-- the king's entry takes slices of its own table -/
theorem templateSources_king : ∃ witnesses,
    witnessPlan compiledScoutApp.toApp compiledScoutApp.plan king
      (king.entries.get ⟨0, Nat.one_pos⟩) = .ok witnesses ∧
    ((∀ spec ∈ witnesses.templates, RealSource compiledScoutApp.toApp compiledScoutApp.plan king
        (king.entries.get ⟨0, Nat.one_pos⟩) spec) ↔
      TablesReached compiledScoutApp.toApp compiledScoutApp.plan king
        (king.entries.get ⟨0, Nat.one_pos⟩)) := by
  obtain ⟨witnesses, h⟩ := exists_ok_of_isOk (show (witnessPlan compiledScoutApp.toApp
    compiledScoutApp.plan king (king.entries.get ⟨0, Nat.one_pos⟩)).isOk = true by decide +kernel)
  refine ⟨witnesses, h, templateSources_real compiledScoutApp king _ witnesses ?_
    (List.get_mem _ _) h⟩
  exact List.mem_cons_of_mem _ (List.mem_cons_of_mem _ List.mem_cons_self)

end Argent.Codegen
