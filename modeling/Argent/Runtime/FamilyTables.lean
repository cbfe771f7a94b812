import Argent.Artifacts.Handles
import Argent.Base.Blocks
import Argent.Runtime.Bundle

/-!
# The tables of route families

The check of the template plan, the builder and the derivation of digests each put the table of a
route family together from their own structures.

* `templateHash_receipt`      the receipt of an actor carries the hash of its contract;
* `familyTable_canonical`      **the three agree: the table lists the members that are no entry
                               actors, and its bytes hash to every digest of the family**.
-/

set_option linter.unusedSectionVars false

namespace Argent.Runtime
open Argent.Fallible Argent.Sil Argent.Artifacts

section
variable {crates : Crates} {artifact : Artifact} {index : PlanIndex}
  (hplan : PlanChecked crates artifact.argent.templatePlan artifact index)
include hplan

theorem templateHash_receipt {template : TemplateReceiptArtifact} {actor : String}
    (htemplate : template ∈ artifact.argent.templatePlan.templates)
    (hactor : template.actor = actor) :
    ∃ contract, artifact.silAbi.contract actor = some contract ∧
      silTemplateHashBytes artifact.argent.templatePlan.lookup.toTemplateHashLookup actor =
        .ok contract.compiled.templateHash.bytes := by
  cases hfind : artifact.argent.templatePlan.templates.find? fun t => t.actor == actor with
  | none => exact absurd (beq_iff_eq.mpr hactor) (List.find?_eq_none.mp hfind template htemplate)
  | some found =>
    have hfound : found.actor = actor := by simpa using List.find?_some hfind
    obtain ⟨hcontract, contract, hget, hhash⟩ :=
      checkTemplate_ok (hplan.template_ok found (List.mem_of_find?_eq_some hfind))
    refine ⟨contract, ?_, ?_⟩
    · rw [← hfound, hcontract]
      exact hget
    · have hlookup : artifact.argent.templatePlan.lookup.templateHashByActor actor =
          some found.hashRef := by
        show (artifact.argent.templatePlan.templates.find? fun t => t.actor == actor).map _ = _
        rw [hfind]
        rfl
      unfold silTemplateHashBytes
      rw [hlookup, ← hhash]
      rfl

end

/-- the template hash of the contract that a leaf names -/
def leafBytes (artifact : Artifact) (entry : RouteTemplateTableEntryArtifact) : Bytes :=
  match entry.leaf with
  | .template actor _ =>
    match artifact.silAbi.contract actor with
    | some contract => contract.compiled.templateHash.bytes
    | none => []
  | .routeFamily _ _ => []

/-- a template leaf whose actor has a contract, and a receipt with the hash of that contract -/
structure TemplateLeaf (artifact : Artifact) (entry : RouteTemplateTableEntryArtifact)
    (actor : String) (contract : SilContractArtifact) : Prop where
  leaf : ∃ templateId, entry.leaf = .template actor templateId
  contract_eq : artifact.silAbi.contract actor = some contract
  receipt : silTemplateHashBytes artifact.argent.templatePlan.lookup.toTemplateHashLookup actor =
    .ok contract.compiled.templateHash.bytes

theorem TemplateLeaf.leafBytes_eq {artifact : Artifact} {entry : RouteTemplateTableEntryArtifact}
    {actor : String} {contract : SilContractArtifact}
    (h : TemplateLeaf artifact entry actor contract) :
    leafBytes artifact entry = contract.compiled.templateHash.bytes := by
  obtain ⟨templateId, hleaf⟩ := h.leaf
  unfold leafBytes
  rw [hleaf]
  dsimp only
  rw [h.contract_eq]

theorem templateLeaf_of_checked {crates : Crates} {artifact : Artifact} {index : PlanIndex}
    (hplan : PlanChecked crates artifact.argent.templatePlan artifact index)
    {table : RouteTemplateTableArtifact}
    (htable : table ∈ artifact.argent.templatePlan.routeTables)
    {entry : RouteTemplateTableEntryArtifact} (hentry : entry ∈ table.entries)
    (hleaf : ∃ actor templateId, entry.leaf = .template actor templateId) :
    ∃ actor contract, TemplateLeaf artifact entry actor contract := by
  obtain ⟨actor, templateId, hleaf⟩ := hleaf
  obtain ⟨i, hi, rfl⟩ := List.mem_iff_getElem.mp hentry
  obtain ⟨-, hentries⟩ := checkTable_ok (hplan.table_ok table htable)
  obtain ⟨-, -, htemplate⟩ := checkTableEntry_ok (hentries i _ (List.getElem?_eq_getElem hi))
  obtain ⟨template, hget, hactor⟩ := htemplate actor templateId hleaf
  obtain ⟨contract, hcontract, hbytes⟩ :=
    templateHash_receipt hplan (hplan.templates.mem hget) hactor
  exact ⟨actor, contract, ⟨templateId, hleaf⟩, hcontract, hbytes⟩

section
variable {artifact : Artifact} {family : RouteTemplateFamilyArtifact}
  {table : RouteTemplateTableArtifact}
  (hfamily : artifact.argent.templatePlan.routeFamilies.find? (fun f => f.id == family.id) =
    some family)
  (htable : artifact.argent.templatePlan.routeTables.find? (fun t => t.id == family.tableId) =
    some table)
  (hleaves : ∀ entry ∈ table.entries, ∃ actor contract, TemplateLeaf artifact entry actor contract)
include hfamily htable hleaves

/-- the table that the builder passes -/
theorem routeFamilyTableBytes_ok :
    routeFamilyTableBytesInArtifact artifact family.id =
      .ok (table.entries.flatMap (leafBytes artifact)) := by
  refine bind_eq_ok.mpr ⟨family, okOr_eq_ok.mpr hfamily, ?_⟩
  refine bind_eq_ok.mpr ⟨table, okOr_eq_ok.mpr htable, ?_⟩
  refine bind_eq_ok.mpr ⟨table.entries.map (leafBytes artifact),
    mapM_of_forall fun entry hentry => ?_, ?_⟩
  · obtain ⟨actor, contract, hleaf⟩ := hleaves entry hentry
    obtain ⟨templateId, heq⟩ := hleaf.leaf
    rw [heq, hleaf.leafBytes_eq]
    unfold contractInArtifact
    dsimp only
    rw [hleaf.contract_eq]
    rfl
  · rw [List.flatMap_def]
    rfl

theorem fixedDigest_ok {hashes : Hashes} {runtimeState : RuntimeStatePlanArtifact}
    {field : RuntimeFieldRolePlanArtifact} (hrole : field.role = .templateDigest family.id) :
    fixedRuntimeContextValue hashes artifact.argent.templatePlan.lookup runtimeState field =
      .ok (hashes.blake3 (table.entries.flatMap (leafBytes artifact))).bytes := by
  unfold fixedRuntimeContextValue
  rw [hrole]
  refine bind_eq_ok.mpr ⟨family, okOr_eq_ok.mpr hfamily, ?_⟩
  refine bind_eq_ok.mpr ⟨table, okOr_eq_ok.mpr htable, ?_⟩
  refine bind_eq_ok.mpr ⟨table.entries.flatMap (leafBytes artifact), ?_, rfl⟩
  refine bind_eq_ok.mpr ⟨table.entries.map (leafBytes artifact),
    mapM_of_forall fun entry hentry => ?_, ?_⟩
  · obtain ⟨actor, contract, hleaf⟩ := hleaves entry hentry
    obtain ⟨templateId, heq⟩ := hleaf.leaf
    rw [heq, hleaf.leafBytes_eq]
    exact hleaf.receipt
  · rw [List.flatMap_def]
    rfl

end

/-! ## the table of a family -/

/-- what is guaranteed of the table of a route family and of its bytes -/
structure FamilyTable (crates : Crates) (artifact : Artifact)
    (family : RouteTemplateFamilyArtifact) (table : RouteTemplateTableArtifact) (bytes : Bytes) :
    Prop where
  table_eq : artifact.argent.templatePlan.routeTables.find? (fun t => t.id == family.tableId) =
    some table
  position : ∀ i entry, table.entries[i]? = some entry → entry.index = i ∧ entry.offset = 32 * i
  byteLen : table.byteLen = 32 * table.entries.length
  leaves : ∀ entry ∈ table.entries, ∃ actor templateId, entry.leaf = .template actor templateId
  nodup : (tableActors table).Nodup
  mem_iff : ∀ actor, actor ∈ tableActors table ↔
    actor ∈ family.actors ∧ actor ∉ family.entryActors
  runtime : routeFamilyTableBytesInArtifact artifact family.id = .ok bytes
  length_bytes : bytes.length = table.byteLen
  slice : ∀ entry ∈ table.entries, ∀ actor templateId, entry.leaf = .template actor templateId →
    ∃ contract, artifact.silAbi.contract actor = some contract ∧
      (bytes.drop entry.offset).take 32 = contract.compiled.templateHash.bytes
  digest : ∀ runtimeState field, field.role = .templateDigest family.id →
    fixedRuntimeContextValue crates.toHashes artifact.argent.templatePlan.lookup runtimeState
      field = .ok (crates.blake3 bytes).bytes
  stored : ∀ template ∈ artifact.argent.templatePlan.templates, ∀ runtimePlan,
    artifact.argent.templatePlan.runtimeStatePlan template.contract = some runtimePlan →
      ∀ role ∈ runtimePlan.fieldRoles, role.role = .templateDigest family.id →
        ∃ contract leading context values,
          artifact.silAbi.contract template.contract = some contract ∧
          template.actorTypeHandle.template.leading = leading ++ context ∧
          crates.encodeRuntimeStateScript artifact.silAbi
            ⟨template.actorTypeHandle.state, leadingFields contract template⟩ values =
              .ok context ∧
          values.get role.name = some (.bytes (crates.blake3 bytes).bytes)

/-- a digest in the context of a handle is the one that the plan fixes -/
theorem stored_digest {crates : Crates} {artifact : Artifact} {index : PlanIndex}
    (hplan : PlanChecked crates artifact.argent.templatePlan artifact index)
    {template : TemplateReceiptArtifact}
    (htemplate : template ∈ artifact.argent.templatePlan.templates)
    {runtimePlan : RuntimeStatePlanArtifact}
    (hruntimePlan : artifact.argent.templatePlan.runtimeStatePlan template.contract =
      some runtimePlan)
    {role : RuntimeFieldRolePlanArtifact} (hrole : role ∈ runtimePlan.fieldRoles) {value : Bytes}
    (hvalue : fixedRuntimeContextValue crates.toHashes artifact.argent.templatePlan.lookup
      runtimePlan role = .ok value) :
    ∃ contract leading context values, artifact.silAbi.contract template.contract = some contract ∧
      template.actorTypeHandle.template.leading = leading ++ context ∧
      crates.encodeRuntimeStateScript artifact.silAbi
        ⟨template.actorTypeHandle.state, leadingFields contract template⟩ values = .ok context ∧
      values.get role.name = some (.bytes value) := by
  obtain ⟨contract, hcontract, hverify⟩ := hplan.handle_ok template htemplate
  obtain ⟨_, _, leading, _, context, values, hhandle⟩ := verifyActorTypeHandle_ok hverify
  obtain ⟨found, hfound, hget⟩ := hhandle.committed runtimePlan hruntimePlan role hrole
  obtain rfl := Except.ok.inj (hvalue.symm.trans hfound)
  exact ⟨contract, leading, context, values, hcontract, hhandle.prefix_eq, hhandle.encoded, hget⟩

/-- Every route family of a checked plan has its table: distinct actors at offsets 0, 32, 64 and so
on, exactly the members that are no entry actors, no nested family, and bytes that the builder
passes and whose hash is every digest of the family, in the plan and in the handles. -/
theorem familyTable_canonical (crates : Crates) (artifact : Artifact)
    (hcheck : artifact.argent.templatePlan.checkConsistency crates artifact = .ok ⟨⟩)
    (family : RouteTemplateFamilyArtifact)
    (hfamily : family ∈ artifact.argent.templatePlan.routeFamilies) :
    ∃ table bytes, FamilyTable crates artifact family table bytes := by
  obtain ⟨index, hplan⟩ := checkConsistency_checked hcheck
  obtain ⟨table, hget, hleaves, hnodup, hmem⟩ := checkFamilyTable_ok
    (hplan.familyTable_ok family hfamily)
  have htable := hplan.tables.mem hget
  obtain ⟨hlen, hentries⟩ := checkTable_ok (hplan.table_ok table htable)
  have hposition : ∀ i entry, table.entries[i]? = some entry →
      entry.index = i ∧ entry.offset = 32 * i := by
    intro i entry hentry
    obtain ⟨hidx, hoffset, -⟩ := checkTableEntry_ok (hentries i entry hentry)
    exact ⟨hidx, by rw [hoffset, Nat.mul_comm]⟩
  have hfamilyFind := (hplan.families.find? family.id).trans (hplan.families.get_key hfamily)
  have htableFind := (hplan.tables.find? family.tableId).trans hget
  have htemplate : ∀ entry ∈ table.entries, ∃ actor contract,
      TemplateLeaf artifact entry actor contract := fun entry hentry =>
    templateLeaf_of_checked hplan htable hentry (hleaves entry hentry)
  have hwidth : ∀ entry ∈ table.entries, (leafBytes artifact entry).length = 32 := by
    intro entry hentry
    obtain ⟨_, contract, hleaf⟩ := htemplate entry hentry
    rw [hleaf.leafBytes_eq, contract.compiled.templateHash.length_bytes]
  refine ⟨table, table.entries.flatMap (leafBytes artifact),
    { table_eq := htableFind
      position := hposition
      byteLen := by rw [hlen, Nat.mul_comm]
      leaves := hleaves
      nodup := hnodup
      mem_iff := hmem
      runtime := routeFamilyTableBytes_ok hfamilyFind htableFind htemplate
      length_bytes := by rw [Blocks.length_flatMap hwidth, hlen]
      slice := ?_
      digest := fun _ _ hrole => fixedDigest_ok hfamilyFind htableFind htemplate hrole
      stored := fun _ ht _ hruntimePlan role hmem hrole => stored_digest hplan ht hruntimePlan hmem
        (fixedDigest_ok hfamilyFind htableFind htemplate hrole) }⟩
  intro entry hentry actor templateId heq
  obtain ⟨actor', contract, hleaf⟩ := htemplate entry hentry
  obtain ⟨templateId', heq'⟩ := hleaf.leaf
  obtain ⟨rfl, rfl⟩ := RouteTemplateLeafArtifact.template.inj (heq.symm.trans heq')
  obtain ⟨i, hi, rfl⟩ := List.mem_iff_getElem.mp hentry
  refine ⟨contract, hleaf.contract_eq, ?_⟩
  rw [(hposition i _ (List.getElem?_eq_getElem hi)).2, Nat.mul_comm,
    Blocks.take_drop_flatMap hwidth (List.getElem?_eq_getElem hi), hleaf.leafBytes_eq]

theorem familyTable_canonical_sample :
    ∃ table bytes, FamilyTable hiveCrates hive
      ⟨"caste", "Cell", "Queen", [], "route_table/Cell/routes", ["Queen", "Worker"]⟩ table bytes :=
  familyTable_canonical hiveCrates hive (checkConsistency_ok hive_consistent).plan _
    List.mem_cons_self

end Argent.Runtime
