import Argent.Artifacts.Consistency

/-!
# What a consistent template plan guarantees

Each phase of the check of a template plan read back as facts about the plan, and all of them
together.

* `PlanChecked`      the phases of a successful check, with the maps that they share;
* `checkConsistency_checked`      **a checked plan has passed every phase**;
* `checkTemplate_ok`, `checkTable_ok`, `checkFamilyTable_ok`      one fact about each phase.
-/

set_option linter.unusedSectionVars false

namespace Argent.Artifacts
open Argent.Fallible Argent.Sil

/-! ## all phases -/

/-- the maps by which the phases refer to each other -/
structure PlanIndex where
  templates : BTreeMap String TemplateReceiptArtifact
  families : BTreeMap String RouteTemplateFamilyArtifact
  tables : BTreeMap String RouteTemplateTableArtifact
  proofs : BTreeMap String RouteTemplateProofArtifact

structure PlanChecked (crates : Crates) (plan : TemplatePlanArtifact) (artifact : Artifact)
    (index : PlanIndex) : Prop where
  templates : Indexes (·.id) plan.templates index.templates
  families : Indexes (·.id) plan.routeFamilies index.families
  tables : Indexes (·.id) plan.routeTables index.tables
  proofs : Indexes (·.id) plan.routeProofs index.proofs
  runtimeStates : ∃ byContract, Indexes (·.contract) plan.runtimeStates byContract
  template_ok : ∀ template ∈ plan.templates, checkTemplate crates artifact template = .ok ⟨⟩
  family_ok : ∀ family ∈ plan.routeFamilies, checkFamily (actorStates artifact) family = .ok ⟨⟩
  runtimeState_ok : ∀ runtimeState ∈ plan.runtimeStates,
    checkRuntimeState artifact (actorStates artifact) runtimeState = .ok ⟨⟩
  table_ok : ∀ table ∈ plan.routeTables,
    checkTable index.templates index.families index.tables table = .ok ⟨⟩
  familyTable_ok : ∀ family ∈ plan.routeFamilies, checkFamilyTable index.tables family = .ok ⟨⟩
  handle_ok : ∀ template ∈ plan.templates, ∃ contract,
    artifact.silAbi.contract template.contract = some contract ∧
      verifyActorTypeHandle crates plan artifact template template.contract contract = .ok ⟨⟩
  spawns_ok : ∀ actor ∈ artifact.argent.actors, ∀ entry ∈ actor.entries,
    verifyEntrySpawns (actor.name ++ "::" ++ entry.name) entry = .ok ⟨⟩

section
variable {crates : Crates} {plan : TemplatePlanArtifact} {artifact : Artifact}

theorem checkTemplates_ok {byId : BTreeMap String TemplateReceiptArtifact}
    (h : checkTemplates crates plan artifact = .ok byId) :
    Indexes (·.id) plan.templates byId ∧
      ∀ template ∈ plan.templates, checkTemplate crates artifact template = .ok ⟨⟩ := by
  obtain ⟨byId', hindex, h⟩ := bind_eq_ok.mp h
  obtain ⟨-, h⟩ := check_eq_ok.mp h
  obtain ⟨-, h⟩ := check_eq_ok.mp h
  obtain rfl := pure_eq_ok.mp h
  exact indexUnique_ok hindex

theorem checkTables_ok {templates : BTreeMap String TemplateReceiptArtifact}
    {families : BTreeMap String RouteTemplateFamilyArtifact}
    {byId : BTreeMap String RouteTemplateTableArtifact}
    (h : checkTables plan templates families = .ok byId) :
    Indexes (·.id) plan.routeTables byId ∧
      ∀ table ∈ plan.routeTables, checkTable templates families byId table = .ok ⟨⟩ := by
  obtain ⟨byId', hindex, h⟩ := bind_eq_ok.mp h
  obtain ⟨hchecks, h⟩ := check_eq_ok.mp h
  obtain rfl := pure_eq_ok.mp h
  exact ⟨(indexUnique_ok hindex).1, fun table htable => forM_ok_of_mem hchecks htable⟩

theorem checkProofs_ok {hashes : Hashes} {templates : BTreeMap String TemplateReceiptArtifact}
    {tables : BTreeMap String RouteTemplateTableArtifact}
    {byId : BTreeMap String RouteTemplateProofArtifact}
    (h : checkProofs hashes plan templates tables = .ok byId) :
    Indexes (·.id) plan.routeProofs byId := by
  obtain ⟨byId', hindex, h⟩ := bind_eq_ok.mp h
  obtain ⟨-, h⟩ := check_eq_ok.mp h
  obtain ⟨-, h⟩ := check_eq_ok.mp h
  obtain rfl := pure_eq_ok.mp h
  exact (indexUnique_ok hindex).1

theorem checkEntry_spawns {templates : BTreeMap String TemplateReceiptArtifact}
    {recipes : BTreeMap String WitnessRecipeArtifact} {actor : ActorArtifact}
    {entry : EntryArtifact} (h : checkEntry templates recipes actor entry = .ok ⟨⟩) :
    verifyEntrySpawns (actor.name ++ "::" ++ entry.name) entry = .ok ⟨⟩ :=
  orFail_eq_ok.mp (check_eq_ok.mp h).1

/-- a checked plan has passed every phase -/
theorem checkConsistency_checked (h : plan.checkConsistency crates artifact = .ok ⟨⟩) :
    ∃ index, PlanChecked crates plan artifact index := by
  obtain ⟨templates, htemplates, h⟩ := bind_eq_ok.mp h
  obtain ⟨families, hfamilies, h⟩ := bind_eq_ok.mp h
  obtain ⟨runtimeStates, hruntimeStates, h⟩ := bind_eq_ok.mp h
  obtain ⟨tables, htables, h⟩ := bind_eq_ok.mp h
  obtain ⟨-, h⟩ := check_eq_ok.mp h
  obtain ⟨proofs, hproofs, h⟩ := bind_eq_ok.mp h
  obtain ⟨hfamilyTables, h⟩ := check_eq_ok.mp h
  obtain ⟨hhandles, h⟩ := check_eq_ok.mp h
  obtain ⟨recipes, -, hentries⟩ := bind_eq_ok.mp h
  obtain ⟨htemplates, htemplate⟩ := checkTemplates_ok htemplates
  obtain ⟨hfamilies, hfamily⟩ := indexUnique_ok hfamilies
  obtain ⟨hruntimeStates, hruntimeState⟩ := indexUnique_ok hruntimeStates
  obtain ⟨htables, htable⟩ := checkTables_ok htables
  refine ⟨⟨templates, families, tables, proofs⟩, htemplates, hfamilies, htables,
    checkProofs_ok hproofs, ⟨runtimeStates, hruntimeStates⟩, htemplate, hfamily, hruntimeState,
    htable, fun family hf => forM_ok_of_mem hfamilyTables hf, fun template ht => ?_,
    fun actor ha entry he => ?_⟩
  · obtain ⟨contract, hcontract, hhandle⟩ := bind_eq_ok.mp (forM_ok_of_mem hhandles ht)
    exact ⟨contract, expect_eq_ok.mp hcontract, hhandle⟩
  · exact checkEntry_spawns (forM_ok_of_mem (forM_ok_of_mem hentries ha) he)

end

/-! ## one phase at a time -/

/-- a receipt names the contract of its actor and carries its template hash -/
theorem checkTemplate_ok {crates : Crates} {artifact : Artifact}
    {template : TemplateReceiptArtifact} (h : checkTemplate crates artifact template = .ok ⟨⟩) :
    template.actor = template.contract ∧ ∃ contract,
      artifact.silAbi.contract template.contract = some contract ∧
        template.silTemplateHash = contract.compiled.templateHash := by
  obtain ⟨contract, hcontract, h⟩ := bind_eq_ok.mp h
  obtain ⟨hactor, h⟩ := check_eq_ok.mp h
  exact ⟨not_not.mp (rejectIf_eq_ok.mp hactor), contract, okOr_eq_ok.mp hcontract,
    not_not.mp (rejectIf_eq_ok.mp h)⟩

section
variable {templates : BTreeMap String TemplateReceiptArtifact}
  {families : BTreeMap String RouteTemplateFamilyArtifact}
  {tables : BTreeMap String RouteTemplateTableArtifact}

/-- an entry stands at its index and offset, and a template entry names the actor of its receipt -/
theorem checkTableEntry_ok {table : RouteTemplateTableArtifact}
    {entry : RouteTemplateTableEntryArtifact} {i : Nat}
    (h : checkTableEntry templates families tables table (entry, i) = .ok ⟨⟩) :
    entry.index = i ∧ entry.offset = i * 32 ∧ ∀ actor templateId,
      entry.leaf = .template actor templateId →
        ∃ template, templates.get templateId = some template ∧ template.actor = actor := by
  obtain ⟨hposition, h⟩ := check_eq_ok.mp h
  rw [rejectIf_eq_ok, not_or, not_not, not_not] at hposition
  refine ⟨hposition.1, hposition.2, fun actor templateId hleaf => ?_⟩
  rw [hleaf] at h
  obtain ⟨template, htemplate, h⟩ := bind_eq_ok.mp h
  exact ⟨template, okOr_eq_ok.mp htemplate, not_not.mp (rejectIf_eq_ok.mp h)⟩

theorem checkTable_ok {table : RouteTemplateTableArtifact}
    (h : checkTable templates families tables table = .ok ⟨⟩) :
    table.byteLen = table.entries.length * 32 ∧ ∀ i entry, table.entries[i]? = some entry →
      checkTableEntry templates families tables table (entry, i) = .ok ⟨⟩ := by
  obtain ⟨hlen, h⟩ := check_eq_ok.mp h
  refine ⟨not_not.mp (rejectIf_eq_ok.mp hlen), fun i entry hentry => forM_ok_of_mem h ?_⟩
  rw [List.mem_zipIdx_iff_getElem?]
  exact hentry

theorem nodup_of_length_eq_card {l : List String}
    (h : l.length = (BTreeSet.ofList l).card) : l.Nodup := by
  have hperm : (BTreeSet.ofList l).toList.Perm l := by
    refine (List.subperm_of_subset (BTreeSet.nodup _) fun a ha =>
      BTreeSet.mem_ofList.mp ha).perm_of_length_le ?_
    exact Nat.le_of_eq h
  exact hperm.nodup_iff.mp (BTreeSet.nodup _)

theorem checkFamilyTable_ok {family : RouteTemplateFamilyArtifact}
    (h : checkFamilyTable tables family = .ok ⟨⟩) :
    ∃ table, tables.get family.tableId = some table ∧
      (∀ entry ∈ table.entries, ∃ actor templateId, entry.leaf = .template actor templateId) ∧
      (tableActors table).Nodup ∧
      ∀ actor, actor ∈ tableActors table ↔ actor ∈ family.actors ∧ actor ∉ family.entryActors := by
  obtain ⟨table, htable, h⟩ := bind_eq_ok.mp h
  obtain ⟨hleaves, h⟩ := check_eq_ok.mp h
  rw [rejectIf_eq_ok, not_or, not_or, not_not, not_not, not_not] at h
  obtain ⟨-, hcard, hset⟩ := h
  refine ⟨table, okOr_eq_ok.mp htable, fun entry hentry => ?_, ?_, fun actor => ?_⟩
  · have hleaf := forM_ok_of_mem hleaves hentry
    cases hcase : entry.leaf with
    | template actor templateId => exact ⟨actor, templateId, rfl⟩
    | routeFamily familyId proofId =>
      rw [hcase] at hleaf
      cases hleaf
  · rw [← hset] at hcard
    exact nodup_of_length_eq_card hcard
  · rw [← BTreeSet.mem_ofList, hset, BTreeSet.mem_ofList, List.mem_filter, decide_eq_true_eq,
      BTreeSet.mem_ofList]

end

end Argent.Artifacts
