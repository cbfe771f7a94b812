import Argent.Artifacts.Handles
import Argent.Artifacts.PanicSites
import Argent.Artifacts.TemplatePlanSound

/-!
# The artifact check never panics

An `expect` of a later phase stands for something that an earlier phase has established: each
phase is shown not to panic from what the phases before it have found.

* `checkRuntimeState_ok`      what the later `expect`s of a runtime state rely on;
* `verifyActorTypeHandle_neverPanics`      both slices of a handle are in range;
* `check_never_panics`      **the check of any artifact ends with `Ok` or `Err`**.
-/

set_option linter.unusedSectionVars false

namespace Argent.Artifacts
open Argent.Fallible Argent.Sil

variable {crates : Crates} {plan : TemplatePlanArtifact} {artifact : Artifact}

/-! ## phases without an `expect` -/

theorem checkTemplate_neverPanics (template : TemplateReceiptArtifact) :
    NeverPanics (checkTemplate crates artifact template) := by
  refine Avoids.bind (Avoids.okOr _ _) fun contract _ => ?_
  refine Avoids.bind (Avoids.rejectIf _ _) fun _ _ => ?_
  exact Avoids.rejectIf _ _

theorem checkTemplates_neverPanics : NeverPanics (checkTemplates crates plan artifact) := by
  refine Avoids.bind (Avoids.indexUnique fun template _ => checkTemplate_neverPanics template)
    fun templatesById _ => ?_
  refine Avoids.bind (Avoids.forM fun templateRef _ => ?_) fun _ _ => ?_
  · refine Avoids.bind (Avoids.okOr _ _) fun template _ => ?_
    exact Avoids.rejectIf _ _
  · refine Avoids.bind (Avoids.forM fun template _ => ?_) fun _ _ => ?_
    · exact Avoids.rejectIf _ _
    · exact Avoids.pure _

theorem rejectRepeated_neverPanics {repeated : String → TemplatePlanError}
    {check : String → PlanCheck PUnit} (h : ∀ name, NeverPanics (check name))
    (names : List String) : NeverPanics (rejectRepeated repeated check names) := by
  refine Avoids.foldlM fun seen name _ => ?_
  refine Avoids.bind (Avoids.rejectIf _ _) fun _ _ => ?_
  refine Avoids.bind (h name) fun _ _ => ?_
  exact Avoids.pure _

theorem checkFamily_neverPanics (states : BTreeMap String String)
    (family : RouteTemplateFamilyArtifact) : NeverPanics (checkFamily states family) := by
  refine Avoids.bind (Avoids.rejectIf _ _) fun _ _ => ?_
  refine Avoids.bind (rejectRepeated_neverPanics (fun _ => Avoids.pure _) _) fun members _ => ?_
  refine Avoids.bind (Avoids.rejectIf _ _) fun _ _ => ?_
  refine Avoids.bind (rejectRepeated_neverPanics (fun _ => Avoids.rejectIf _ _) _) fun _ _ => ?_
  refine Avoids.forM fun actor _ => ?_
  refine Avoids.bind (Avoids.okOr _ _) fun state _ => ?_
  exact Avoids.rejectIf _ _

theorem checkRuntimeState_neverPanics (states : BTreeMap String String)
    (runtimeState : RuntimeStatePlanArtifact) :
    NeverPanics (checkRuntimeState artifact states runtimeState) := by
  refine Avoids.bind (Avoids.okOr _ _) fun contract _ => ?_
  refine Avoids.bind (Avoids.okOr _ _) fun actorState _ => ?_
  refine Avoids.bind (Avoids.rejectIf _ _) fun _ _ => ?_
  refine Avoids.bind (Avoids.foldlM fun names field _ => ?_) fun _ _ => Avoids.pure _
  refine Avoids.bind (Avoids.rejectIf _ _) fun _ _ => ?_
  refine Avoids.bind (Avoids.rejectIf _ _) fun _ _ => ?_
  exact Avoids.pure _

section
variable (templates : BTreeMap String TemplateReceiptArtifact)
  (families : BTreeMap String RouteTemplateFamilyArtifact)
  (tables : BTreeMap String RouteTemplateTableArtifact)

theorem checkTableEntry_neverPanics (table : RouteTemplateTableArtifact)
    (item : RouteTemplateTableEntryArtifact × Nat) :
    NeverPanics (checkTableEntry templates families tables table item) := by
  unfold checkTableEntry
  dsimp only
  refine Avoids.bind (Avoids.rejectIf _ _) fun _ _ => ?_
  cases item.1.leaf with
  | template actor templateId =>
    refine Avoids.bind (Avoids.okOr _ _) fun template _ => ?_
    exact Avoids.rejectIf _ _
  | routeFamily familyId proofId =>
    refine Avoids.bind (Avoids.okOr _ _) fun family _ => ?_
    refine Avoids.bind (Avoids.okOr _ _) fun familyTable _ => ?_
    exact Avoids.rejectIf _ _

theorem checkTables_neverPanics : NeverPanics (checkTables plan templates families) := by
  refine Avoids.bind (Avoids.indexUnique fun table _ => Avoids.pure _) fun tables _ => ?_
  refine Avoids.bind (Avoids.forM fun table _ => ?_) fun _ _ => Avoids.pure _
  refine Avoids.bind (Avoids.rejectIf _ _) fun _ _ => ?_
  exact Avoids.forM fun item _ => checkTableEntry_neverPanics templates families tables table item

theorem checkFamilyTable_neverPanics (family : RouteTemplateFamilyArtifact) :
    NeverPanics (checkFamilyTable tables family) := by
  refine Avoids.bind (Avoids.okOr _ _) fun table _ => ?_
  refine Avoids.bind (Avoids.forM fun entry _ => ?_) fun _ _ => Avoids.rejectIf _ _
  cases entry.leaf with
  | template actor templateId => exact Avoids.pure _
  | routeFamily familyId proofId => exact Avoids.fail _

theorem checkRecipe_neverPanics (proofs : BTreeMap String RouteTemplateProofArtifact)
    (recipe : WitnessRecipeArtifact) :
    NeverPanics (checkRecipe artifact templates families proofs recipe) := by
  unfold checkRecipe
  dsimp only
  cases recipe.routeProofId with
  | none =>
    cases recipe.subject with
    | actor actor =>
      cases recipe.templateId with
      | none => exact Avoids.bind (Avoids.rejectIf _ _) fun _ _ => Avoids.pure _
      | some templateId =>
        refine Avoids.bind (Avoids.okOr _ _) fun template _ => ?_
        exact Avoids.bind (Avoids.rejectIf _ _) fun _ _ => Avoids.pure _
    | routeFamily familyId => exact Avoids.bind (Avoids.rejectIf _ _) fun _ _ => Avoids.pure _
    | _ => exact Avoids.pure _
  | some routeProofId =>
    cases recipe.subject with
    | actor actor =>
      cases recipe.templateId with
      | none => exact Avoids.bind (Avoids.rejectIf _ _) fun _ _ => Avoids.rejectIf _ _
      | some templateId =>
        refine Avoids.bind (Avoids.okOr _ _) fun template _ => ?_
        exact Avoids.bind (Avoids.rejectIf _ _) fun _ _ => Avoids.rejectIf _ _
    | routeFamily familyId => exact Avoids.bind (Avoids.rejectIf _ _) fun _ _ => Avoids.rejectIf _ _
    | _ => exact Avoids.rejectIf _ _

theorem checkEntry_neverPanics (recipes : BTreeMap String WitnessRecipeArtifact)
    (actor : ActorArtifact) (entry : EntryArtifact) :
    NeverPanics (checkEntry templates recipes actor entry) := by
  refine Avoids.bind (Avoids.orFail _ _) fun _ _ => ?_
  refine Avoids.bind (Avoids.forM fun param _ => ?_) fun _ _ => ?_
  · refine Avoids.bind (Avoids.okOr _ _) fun recipe _ => ?_
    exact Avoids.rejectIf _ _
  refine Avoids.bind (Avoids.forM fun witness _ => ?_) fun _ _ => ?_
  · refine Avoids.bind (Avoids.okOr _ _) fun recipe _ => ?_
    exact Avoids.rejectIf _ _
  refine Avoids.bind (Avoids.forM fun recipeId _ => ?_) fun _ _ => ?_
  · refine Avoids.bind (Avoids.rejectIf _ _) fun _ _ => ?_
    exact Avoids.rejectIf _ _
  refine Avoids.forM fun route _ => ?_
  cases route.successor with
  | exactSelf => exact Avoids.pure _
  | constructed actor templateId stateExpr =>
    refine Avoids.bind (Avoids.okOr _ _) fun template _ => ?_
    exact Avoids.rejectIf _ _

end

/-! ## phases with an `expect` -/

theorem get_of_contains {κ β : Type} [LinearOrder κ] {m : BTreeMap κ β} {k : κ}
    (h : m.contains k = true) : ∃ b, m.get k = some b :=
  Option.isSome_iff_exists.mp h

/-- the contract of a runtime state exists and has a field for each field role -/
theorem checkRuntimeState_ok {states : BTreeMap String String}
    {runtimeState : RuntimeStatePlanArtifact}
    (h : checkRuntimeState artifact states runtimeState = .ok ⟨⟩) :
    ∃ contract, artifact.silAbi.contracts.get runtimeState.contract = some contract ∧
      ∀ field ∈ runtimeState.fieldRoles, ∃ silField,
        (silFieldsByName contract).get field.name = some silField := by
  obtain ⟨contract, hcontract, h⟩ := bind_eq_ok.mp h
  obtain ⟨actorState, -, h⟩ := bind_eq_ok.mp h
  obtain ⟨-, h⟩ := check_eq_ok.mp h
  obtain ⟨names, hnames, -⟩ := bind_eq_ok.mp h
  refine ⟨contract, okOr_eq_ok.mp hcontract, ?_⟩
  refine foldlM_ok (fun done _ => ∀ field ∈ done, ∃ silField,
    (silFieldsByName contract).get field.name = some silField) hnames
    (fun _ h => absurd h List.not_mem_nil) ?_
  intro done names field names' _ hdone hstep other hother
  obtain ⟨-, hstep⟩ := check_eq_ok.mp hstep
  obtain ⟨hknown, -⟩ := check_eq_ok.mp hstep
  rw [rejectIf_eq_ok, Bool.not_eq_false] at hknown
  obtain hother | hother := List.mem_append.mp hother
  · exact hdone other hother
  · rw [List.mem_singleton.mp hother]
    exact get_of_contains hknown

theorem checkRoleTable_neverPanics (tables : BTreeMap String RouteTemplateTableArtifact)
    (runtimeState : RuntimeStatePlanArtifact) (silField : RuntimeFieldArtifact)
    (field : RuntimeFieldRolePlanArtifact) (leaves : List RuntimeRouteLeafArtifact)
    (ty : TypeArtifact) (referenced : BTreeSet String) :
    NeverPanics (checkRoleTable tables runtimeState silField field leaves ty referenced) := by
  refine Avoids.bind (Avoids.okOr _ _) fun table _ => ?_
  refine Avoids.bind (Avoids.rejectIf _ _) fun _ _ => ?_
  exact Avoids.pure _

theorem checkFieldRole_neverPanics {families : BTreeMap String RouteTemplateFamilyArtifact}
    {tables : BTreeMap String RouteTemplateTableArtifact} {runtimeState : RuntimeStatePlanArtifact}
    {contract : SilContractArtifact} {silField : RuntimeFieldArtifact}
    {field : RuntimeFieldRolePlanArtifact}
    (h : (silFieldsByName contract).get field.name = some silField)
    (referenced : BTreeSet String) :
    NeverPanics (checkFieldRole families tables runtimeState contract referenced field) := by
  refine Avoids.bind (Avoids.of_eq_some h) fun silField _ => ?_
  cases field.role with
  | templateTable contracts => exact checkRoleTable_neverPanics tables _ _ _ _ _ _
  | templateRoot leaves => exact checkRoleTable_neverPanics tables _ _ _ _ _ _
  | templateDigest id =>
    refine Avoids.bind (Avoids.rejectIf _ _) fun _ _ => ?_
    refine Avoids.bind (Avoids.rejectIf _ _) fun _ _ => ?_
    exact Avoids.pure _
  | template contract =>
    refine Avoids.bind (Avoids.rejectIf _ _) fun _ _ => ?_
    exact Avoids.pure _

/-- the plans of the runtime states have been indexed before their tables are looked up -/
theorem checkRuntimeTables_neverPanics {states : BTreeMap String String}
    {byContract : BTreeMap String RuntimeStatePlanArtifact}
    (h : checkRuntimeStates plan artifact states = .ok byContract)
    (families : BTreeMap String RouteTemplateFamilyArtifact)
    (tables : BTreeMap String RouteTemplateTableArtifact) :
    NeverPanics (checkRuntimeTables plan artifact families tables) := by
  refine Avoids.bind (Avoids.foldlM fun referenced runtimeState hmem => ?_) fun referenced _ => ?_
  · have hstate := (indexUnique_ok h).2 runtimeState hmem
    obtain ⟨contract, hcontract, hfields⟩ := checkRuntimeState_ok hstate
    refine Avoids.bind (Avoids.of_eq_some hcontract) fun found hfound => ?_
    rw [expect_eq_ok, hcontract, Option.some.injEq] at hfound
    subst hfound
    refine Avoids.foldlM fun referenced field hfield => ?_
    obtain ⟨silField, hsil⟩ := hfields field hfield
    exact checkFieldRole_neverPanics hsil referenced
  · exact Avoids.forM fun table _ => Avoids.rejectIf _ _

theorem checkProofs_neverPanics {hashes : Hashes}
    (templates : BTreeMap String TemplateReceiptArtifact)
    (tables : BTreeMap String RouteTemplateTableArtifact) :
    NeverPanics (checkProofs hashes plan templates tables) := by
  refine Avoids.bind (Avoids.indexUnique fun proof _ => Avoids.rejectIf _ _)
    fun proofs hproofs => ?_
  refine Avoids.bind (Avoids.forM fun proof hmem => ?_) fun _ _ => ?_
  · have hknown := (indexUnique_ok hproofs).2 proof hmem
    rw [rejectIf_eq_ok, Bool.not_eq_false] at hknown
    obtain ⟨table, htable⟩ := get_of_contains hknown
    refine Avoids.bind (Avoids.of_eq_some htable) fun table _ => ?_
    exact Avoids.orFail _ _
  · refine Avoids.bind (Avoids.forM fun table _ => ?_) fun _ _ => ?_
    · exact Avoids.rejectIf _ _
    · exact Avoids.pure _

/-! ## handles -/

theorem sliceFrom_neverPanics {α : Type} {items : List α} {start : Nat}
    (h : start ≤ items.length) : NeverPanics (sliceFrom items start) := by
  unfold sliceFrom
  rw [if_pos h]
  exact Avoids.of_eq_some rfl

/-- the context fields are the first runtime fields and the handle's prefix extends the compiled
one, so that both slices are in range -/
theorem verifyActorTypeHandle_neverPanics (template : TemplateReceiptArtifact) (name : String)
    (contract : SilContractArtifact) :
    NeverPanics (verifyActorTypeHandle crates plan artifact template name contract) := by
  unfold verifyActorTypeHandle
  dsimp only
  refine Avoids.bind (Avoids.okOr _ _) fun actor _ => ?_
  refine Avoids.bind (Avoids.rejectIf _ _) fun _ _ => ?_
  refine Avoids.bind (Avoids.rejectIf _ _) fun _ _ => ?_
  refine Avoids.bind (Avoids.rejectIf _ _) fun _ hleading => ?_
  have hfields : template.actorTypeHandle.contextFields.length ≤
      contract.runtimeState.fields.length := by
    rw [rejectIf_eq_ok, not_not] at hleading
    have hlen := congrArg List.length hleading
    rw [List.length_map, List.length_take] at hlen
    omega
  refine Avoids.bind (Avoids.okOr _ _) fun handleState _ => ?_
  refine Avoids.bind (sliceFrom_neverPanics hfields) fun openFields _ => ?_
  refine Avoids.bind (Avoids.rejectIf _ _) fun _ _ => ?_
  refine Avoids.bind (Avoids.okOr _ _) fun parts _ => ?_
  refine Avoids.bind (Avoids.rejectIf _ _) fun _ hextends => ?_
  have hprefix : parts.1.length ≤ template.actorTypeHandle.template.leading.length := by
    rw [rejectIf_eq_ok, Bool.not_eq_false, List.isPrefixOf_iff_prefix] at hextends
    exact hextends.length_le
  refine Avoids.bind (Avoids.rejectIf _ _) fun _ _ => ?_
  refine Avoids.bind (Avoids.rejectIf _ _) fun _ _ => ?_
  refine Avoids.bind (sliceFrom_neverPanics hprefix) fun contextScript _ => ?_
  refine Avoids.bind (Avoids.orFail _ _) fun decoded _ => ?_
  refine Avoids.bind (Avoids.orFail _ _) fun canonical _ => ?_
  refine Avoids.bind (Avoids.rejectIf _ _) fun _ _ => ?_
  cases plan.runtimeStatePlan name with
  | none => exact Avoids.pure _
  | some runtimePlan =>
    refine Avoids.forM fun field _ => ?_
    refine Avoids.bind (Avoids.orFail _ _) fun expected _ => ?_
    exact Avoids.rejectIf _ _

/-! ## the whole check -/

theorem planCheck_neverPanics (crates : Crates) (plan : TemplatePlanArtifact)
    (artifact : Artifact) : NeverPanics (plan.checkConsistency crates artifact) := by
  refine Avoids.bind checkTemplates_neverPanics fun templates htemplates => ?_
  refine Avoids.bind (Avoids.indexUnique fun family _ => checkFamily_neverPanics _ family)
    fun families _ => ?_
  refine Avoids.bind (Avoids.indexUnique fun state _ => checkRuntimeState_neverPanics _ state)
    fun states hstates => ?_
  refine Avoids.bind (checkTables_neverPanics templates families) fun tables _ => ?_
  refine Avoids.bind (checkRuntimeTables_neverPanics hstates families tables) fun _ _ => ?_
  refine Avoids.bind (checkProofs_neverPanics templates tables) fun proofs _ => ?_
  refine Avoids.bind (Avoids.forM fun family _ => checkFamilyTable_neverPanics tables family)
    fun _ _ => ?_
  refine Avoids.bind (Avoids.forM fun template hmem => ?_) fun _ _ => ?_
  · obtain ⟨-, contract, hcontract, -⟩ :=
      checkTemplate_ok ((checkTemplates_ok htemplates).2 template hmem)
    refine Avoids.bind (Avoids.of_eq_some hcontract) fun contract _ => ?_
    exact verifyActorTypeHandle_neverPanics template template.contract contract
  refine Avoids.bind (Avoids.indexUnique fun recipe _ =>
    checkRecipe_neverPanics templates families proofs recipe) fun recipes _ => ?_
  refine Avoids.forM fun actor _ => Avoids.forM fun entry _ => ?_
  exact checkEntry_neverPanics templates recipes actor entry

theorem mapError_planFault_neverPanics {x : PlanCheck PUnit} (h : NeverPanics x) :
    NeverPanics (x.mapError planFault) := by
  intro message heq
  cases x with
  | ok u => cases heq
  | error fault =>
    cases fault with
    | error e => cases heq
    | panic text => exact absurd trivial (h text rfl)

theorem consistency_neverPanics (crates : Crates) (artifact : Artifact) :
    NeverPanics (artifact.checkConsistency crates) := by
  refine Avoids.bind (Avoids.orFail _ _) fun _ _ => ?_
  refine Avoids.bind (Avoids.orFail _ _) fun _ _ => ?_
  refine Avoids.bind (Avoids.orFail _ _) fun _ _ => ?_
  refine Avoids.bind (mapError_planFault_neverPanics (planCheck_neverPanics crates _ artifact))
    fun _ _ => ?_
  refine Avoids.bind (Avoids.orFail _ _) fun _ _ => ?_
  exact Avoids.orFail _ _

/-- the check of any artifact ends with a result or an error value; with every `expect`, index,
slice and subtraction of the source in its place, the functions that it is made of agree with the
ones that cannot panic -/
theorem check_never_panics {crates : Crates} {writeHex : Sites.WriteHex}
    (hhex : Sites.WritesHex crates.toHashes writeHex) (artifact : Artifact) :
    (∀ message, artifact.checkConsistency crates ≠ .error (.panic message)) ∧
    Sites.verifyTemplateFrames artifact = orFail id (verifyTemplateFrames artifact) ∧
    (∀ proof table templates proofs,
      Sites.verifyRouteTemplateProof crates.toHashes writeHex proof table templates proofs =
        orFail id (verifyRouteTemplateProof crates.toHashes proof table templates proofs)) ∧
    (∀ plan runtimeState field,
      Sites.fixedRuntimeContextValue crates.toHashes plan runtimeState field =
        orFail id (fixedRuntimeContextValue crates.toHashes plan runtimeState field)) ∧
    (∀ entryId entry actorExpr spawn handle purpose,
      Sites.verifySourceParam entryId entry actorExpr spawn handle purpose =
        orFail id (verifySourceParam entryId entry actorExpr spawn handle purpose)) ∧
    ∀ bytes, (Sites.encodeHex writeHex bytes : PlanCheck String) = .ok (crates.hexEncode bytes) :=
  ⟨neverPanics_iff.mp (consistency_neverPanics crates artifact),
    Sites.verifyTemplateFrames_eq artifact,
    fun proof table templates proofs =>
      Sites.verifyRouteTemplateProof_eq hhex proof table templates proofs,
    fun plan runtimeState field =>
      Sites.fixedRuntimeContextValue_eq crates.toHashes plan runtimeState field,
    fun entryId entry actorExpr spawn handle purpose =>
      Sites.verifySourceParam_eq entryId entry actorExpr spawn handle purpose,
    fun bytes => Sites.encodeHex_eq hhex bytes⟩

/-- hexadecimal text, refused by a buffer that is too small -/
def writeHexText : Sites.WriteHex := fun bytes capacity =>
  if capacity < bytes.length * 2 then none else some (hexText bytes).toUTF8.data.toList

theorem writeHexText_writesHex : Sites.WritesHex guestCrates.toHashes writeHexText := fun _ =>
  if_neg (Nat.lt_irrefl _)

/-- a plan for the runtime state of a contract that the artifact does not have -/
def strayArtifact : Artifact :=
  { guests with
    argent := { guests.argent with
      templatePlan := { guests.argent.templatePlan with
        runtimeStates := [⟨"Wasp", "Cell", [⟨"gen__ant_template", .template "Ant"⟩]⟩] } } }

theorem check_never_panics_stray :
    (strayArtifact.checkConsistency guestCrates).isOk = false ∧
      ∀ message, strayArtifact.checkConsistency guestCrates ≠ .error (.panic message) :=
  ⟨by decide +kernel, (check_never_panics writeHexText_writesHex strayArtifact).1⟩

end Argent.Artifacts
