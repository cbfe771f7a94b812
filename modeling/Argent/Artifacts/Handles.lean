import Argent.Artifacts.Encoding
import Argent.Artifacts.TemplatePlanSound
import Mathlib.Data.List.Pairwise

/-!
# Actor-type handles

The handle by which an actor is referred to from outside is a template of its own: the frame of the
actor's contract with the leading, compiler-owned fields of the state fixed to their commitments.

* `HandleChecked`      what the check of a handle establishes;
* `HandleRefines`      the handle as a refinement of the frame of its actor;
* `actorTypeHandles_refine`      **handles refine the frames of their actors, and those of distinct
                                 actors have no script in common**.
-/

set_option linter.unusedSectionVars false

namespace Argent.Artifacts
open Argent.Fallible Argent.Sil

/-! ## what a check establishes -/

/-- the compiler-owned fields of the runtime state, in front of the open ones -/
def leadingFields (contract : SilContractArtifact) (template : TemplateReceiptArtifact) :
    List RuntimeFieldArtifact :=
  contract.runtimeState.fields.take template.actorTypeHandle.contextFields.length

def openFields (contract : SilContractArtifact) (template : TemplateReceiptArtifact) :
    List RuntimeFieldArtifact :=
  contract.runtimeState.fields.drop template.actorTypeHandle.contextFields.length

/-- a handle that passed its check; `context` is written between the leading part of the compiled
code and the open state -/
structure HandleChecked (crates : Crates) (plan : TemplatePlanArtifact) (artifact : Artifact)
    (template : TemplateReceiptArtifact) (contract : SilContractArtifact) (actor : ActorArtifact)
    (layout : ArgentStateArtifact) (silPrefix silState context : Bytes)
    (values : BTreeMap String ArtifactValue) : Prop where
  actor_eq : artifact.actorNamed template.actor = some actor
  state_eq : template.actorTypeHandle.state =
    (artifact.expandedBase actor.state).getD actor.state
  contextFields : template.actorTypeHandle.contextFields =
    (fieldRoles (plan.runtimeStatePlan template.contract)).map (·.name)
  leading_names : (leadingFields contract template).map (·.name) =
    template.actorTypeHandle.contextFields
  layout_eq : artifact.argent.states.find?
    (fun state => state.name == template.actorTypeHandle.state) = some layout
  sameLayout : sameOpenLayout (openFields contract template) layout.fields = true
  parts_eq : crates.scriptParts contract.compiled contract.compiled.bytecode =
    some (silPrefix, silState, template.actorTypeHandle.template.trailing)
  prefix_eq : template.actorTypeHandle.template.leading = silPrefix ++ context
  hash_eq : template.actorTypeHandle.template.hash = crates.templateHash
    template.actorTypeHandle.template.leading template.actorTypeHandle.template.trailing
  encoded : crates.encodeRuntimeStateScript artifact.silAbi
    ⟨template.actorTypeHandle.state, leadingFields contract template⟩ values = .ok context
  committed : ∀ runtimePlan, plan.runtimeStatePlan template.contract = some runtimePlan →
    ∀ role ∈ runtimePlan.fieldRoles, ∃ value,
      fixedRuntimeContextValue crates.toHashes plan.lookup runtimePlan role = .ok value ∧
        values.get role.name = some (.bytes value)

theorem ArtifactValue.isBytes_iff {value : ArtifactValue} {expected : Bytes} :
    value.isBytes expected = true ↔ value = .bytes expected := by
  cases value <;> simp [ArtifactValue.isBytes]

theorem verifyContextValue_ok {hashes : Hashes} {plan : TemplatePlanArtifact}
    {runtimePlan : RuntimeStatePlanArtifact} {values : BTreeMap String ArtifactValue}
    {mismatch : String → TemplatePlanError} {role : RuntimeFieldRolePlanArtifact}
    (h : verifyContextValue hashes plan runtimePlan values mismatch role = .ok ⟨⟩) :
    ∃ value, fixedRuntimeContextValue hashes plan.lookup runtimePlan role = .ok value ∧
      values.get role.name = some (.bytes value) := by
  obtain ⟨value, hvalue, h⟩ := bind_eq_ok.mp h
  rw [rejectIf_eq_ok, Bool.not_eq_false, Option.any_eq_true] at h
  obtain ⟨found, hfound, his⟩ := h
  refine ⟨value, orFail_eq_ok.mp hvalue, ?_⟩
  rw [hfound, ArtifactValue.isBytes_iff.mp his]

theorem sliceFrom_ok {α : Type} {items rest : List α} {start : Nat}
    (h : sliceFrom items start = .ok rest) : rest = items.drop start := by
  unfold sliceFrom at h
  rw [expect_eq_ok] at h
  split_ifs at h
  exact (Option.some.inj h).symm

section
variable {crates : Crates} {plan : TemplatePlanArtifact} {artifact : Artifact}
  {template : TemplateReceiptArtifact} {contract : SilContractArtifact}

theorem verifyActorTypeHandle_ok
    (h : verifyActorTypeHandle crates plan artifact template template.contract contract = .ok ⟨⟩) :
    ∃ actor layout silPrefix silState context values, HandleChecked crates plan artifact template
      contract actor layout silPrefix silState context values := by
  obtain ⟨actor, hactor, h⟩ := bind_eq_ok.mp h
  obtain ⟨hstate, h⟩ := check_eq_ok.mp h
  obtain ⟨hcontextFields, h⟩ := check_eq_ok.mp h
  obtain ⟨hnames, h⟩ := check_eq_ok.mp h
  obtain ⟨layout, hlayout, h⟩ := bind_eq_ok.mp h
  obtain ⟨openRuntimeFields, hopen, h⟩ := bind_eq_ok.mp h
  obtain ⟨hsame, h⟩ := check_eq_ok.mp h
  obtain ⟨⟨silPrefix, silState, silSuffix⟩, hparts, h⟩ := bind_eq_ok.mp h
  obtain ⟨hfront, h⟩ := check_eq_ok.mp h
  obtain ⟨hsuffix, h⟩ := check_eq_ok.mp h
  obtain ⟨hhash, h⟩ := check_eq_ok.mp h
  obtain ⟨contextScript, hcontext, h⟩ := bind_eq_ok.mp h
  obtain ⟨values, -, h⟩ := bind_eq_ok.mp h
  obtain ⟨canonicalContext, hencode, h⟩ := bind_eq_ok.mp h
  obtain ⟨hcanonical, h⟩ := check_eq_ok.mp h
  rw [rejectIf_eq_ok, not_not] at hstate hcontextFields hnames hsuffix hhash hcanonical
  rw [rejectIf_eq_ok, Bool.not_eq_false] at hsame hfront
  rw [sliceFrom_ok hopen] at hsame
  obtain ⟨context, hleading⟩ := List.isPrefixOf_iff_prefix.mp hfront
  have hscript : contextScript = context := by
    rw [sliceFrom_ok hcontext, ← hleading, List.drop_left' rfl]
  refine ⟨actor, layout, silPrefix, silState, context, values,
    { actor_eq := okOr_eq_ok.mp hactor
      state_eq := hstate.symm
      contextFields := hcontextFields
      leading_names := hnames
      layout_eq := okOr_eq_ok.mp hlayout
      sameLayout := hsame
      parts_eq := hsuffix ▸ okOr_eq_ok.mp hparts
      prefix_eq := hleading.symm
      hash_eq := hhash
      encoded := ?_
      committed := ?_ }⟩
  · rw [← hscript, ← hcanonical]
    exact orFail_eq_ok.mp hencode
  · intro runtimePlan hplan role hrole
    rw [hplan] at h
    exact verifyContextValue_ok (forM_ok_of_mem h hrole)

end

/-! ## the frame of a handle -/

/-- the width of the state that a handle leaves open -/
def openWidth (enc : FieldEncoding) (artifact : Artifact) (state : String) : Nat :=
  match artifact.argent.states.find? fun layout => layout.name == state with
  | some layout => (layout.fields.map fun field => enc.width artifact.silAbi field.ty).sum
  | none => 0

/-- what a handle accepts: its template around a state of the layout that it names -/
def handleFrame (enc : FieldEncoding) (artifact : Artifact) (template : TemplateReceiptArtifact) :
    Frame UInt8 where
  leading := template.actorTypeHandle.template.leading
  width := openWidth enc artifact template.actorTypeHandle.state
  trailing := template.actorTypeHandle.template.trailing

theorem sum_width_eq {enc : FieldEncoding} {abi : SilAbiArtifact}
    {runtime : List RuntimeFieldArtifact} {source : List ArgentFieldArtifact}
    (h : sameOpenLayout runtime source = true) :
    (source.map fun field => enc.width abi field.ty).sum = enc.stateWidth abi runtime := by
  unfold FieldEncoding.stateWidth
  unfold sameOpenLayout at h
  rw [Bool.and_eq_true, beq_iff_eq, List.all_eq_true] at h
  obtain ⟨hlength, hall⟩ := h
  refine congrArg List.sum (List.ext_getElem ?_ fun i hi hi' => ?_)
  · rw [List.length_map, List.length_map, hlength]
  · rw [List.length_map] at hi hi'
    have hmem : (runtime[i], source[i]) ∈ runtime.zip source :=
      List.mem_of_getElem? (List.getElem?_zip_eq_some.mpr
        ⟨List.getElem?_eq_getElem hi', List.getElem?_eq_getElem hi⟩)
    have hpair := hall _ hmem
    rw [Bool.and_eq_true, beq_iff_eq, beq_iff_eq] at hpair
    rw [List.getElem_map, List.getElem_map, hpair.2]

/-- a handle with its context: the leading fields are those of the roles of the plan, each of them
fixed to its canonical commitment, and all else is as in the frame of the actor's contract -/
structure HandleRefines (enc : FieldEncoding) (hashes : Hashes) (artifact : Artifact)
    (template : TemplateReceiptArtifact) (actor : ActorArtifact) (contract : SilContractArtifact)
    (parts : List Bytes) : Prop where
  actor_eq : artifact.actorNamed template.actor = some actor
  contract_eq : artifact.silAbi.contract actor.abi.contract = some contract
  length_parts : parts.length =
    (fieldRoles (artifact.argent.templatePlan.runtimeStatePlan template.contract)).length
  committed : ∀ runtimePlan,
    artifact.argent.templatePlan.runtimeStatePlan template.contract = some runtimePlan →
      ∀ (i : Nat) (role : RuntimeFieldRolePlanArtifact),
        runtimePlan.fieldRoles[i]? = some role →
        ∃ (field : RuntimeFieldArtifact) (value part : Bytes),
        contract.runtimeState.fields[i]? = some field ∧ field.name = role.name ∧
        fixedRuntimeContextValue hashes artifact.argent.templatePlan.lookup runtimePlan role =
          .ok value ∧
        enc.encode artifact.silAbi field.ty (.bytes value) = .ok part ∧ parts[i]? = some part
  fixes : contract.compiled.frame.Fixes parts.flatten (handleFrame enc artifact template)
  accepted : ∀ script, (handleFrame enc artifact template).Accepts script →
    contract.compiled.frame.Accepts script ∧
      ∃ rest, script = contract.compiled.frame.fill (parts.flatten ++ rest)

section
variable {enc : FieldEncoding} {crates : Crates} {artifact : Artifact}
  {template : TemplateReceiptArtifact} {contract : SilContractArtifact} {actor : ActorArtifact}
  {layout : ArgentStateArtifact} {silPrefix silState context : Bytes}
  {values : BTreeMap String ArtifactValue}
  (h : HandleChecked crates artifact.argent.templatePlan artifact template contract actor layout
    silPrefix silState context values)
include h

theorem HandleChecked.openWidth_eq :
    openWidth enc artifact template.actorTypeHandle.state =
      enc.stateWidth artifact.silAbi (openFields contract template) := by
  unfold openWidth
  rw [h.layout_eq]
  exact sum_width_eq h.sameLayout

theorem HandleChecked.fixes (hsplit : crates.SplitsScripts)
    (hspan : contract.compiled.stateSpan.len =
      enc.stateWidth artifact.silAbi contract.runtimeState.fields)
    (hwidth : context.length = enc.stateWidth artifact.silAbi (leadingFields contract template)) :
    contract.compiled.frame.Fixes context (handleFrame enc artifact template) := by
  rw [hsplit.frame_eq h.parts_eq]
  refine ⟨h.prefix_eq, rfl, ?_⟩
  show contract.compiled.stateSpan.len = context.length +
    openWidth enc artifact template.actorTypeHandle.state
  rw [h.openWidth_eq, hwidth, ← FieldEncoding.stateWidth_append, hspan]
  exact congrArg _ (List.take_append_drop _ _).symm

theorem HandleChecked.committed_part {parts : List Bytes}
    (hparts : List.Forall₂ (enc.Part artifact.silAbi values) (leadingFields contract template) parts)
    {runtimePlan : RuntimeStatePlanArtifact}
    (hplan : artifact.argent.templatePlan.runtimeStatePlan template.contract = some runtimePlan)
    {i : Nat} {role : RuntimeFieldRolePlanArtifact} (hrole : runtimePlan.fieldRoles[i]? = some role) :
    ∃ (field : RuntimeFieldArtifact) (value part : Bytes),
      contract.runtimeState.fields[i]? = some field ∧ field.name = role.name ∧
      fixedRuntimeContextValue crates.toHashes artifact.argent.templatePlan.lookup runtimePlan
        role = .ok value ∧
      enc.encode artifact.silAbi field.ty (.bytes value) = .ok part ∧ parts[i]? = some part := by
  obtain ⟨value, hvalue, hget⟩ := h.committed _ hplan _ (List.mem_of_getElem? hrole)
  have hnames : (leadingFields contract template).map (·.name) =
      runtimePlan.fieldRoles.map (·.name) := by
    rw [h.leading_names, h.contextFields, hplan]
    rfl
  have hname : ((leadingFields contract template).map (·.name))[i]? = some role.name := by
    rw [hnames, List.getElem?_map, hrole]
    rfl
  rw [List.getElem?_map, Option.map_eq_some_iff] at hname
  obtain ⟨field, hfield, hname⟩ := hname
  obtain ⟨hi, rfl⟩ := List.getElem?_eq_some_iff.mp hfield
  have hi' : i < parts.length := hparts.length_eq ▸ hi
  obtain ⟨stored, hstored, hencode⟩ := hparts.get hi hi'
  rw [List.get_eq_getElem] at hstored hencode
  rw [hname, hget] at hstored
  obtain rfl := Option.some.inj hstored
  refine ⟨_, value, parts[i], ?_, hname, hvalue, hencode, List.getElem?_eq_getElem hi'⟩
  rw [← hfield]
  unfold leadingFields at hi ⊢
  rw [List.getElem?_take_of_lt (by rw [List.length_take] at hi; omega)]

/-- a checked handle refines the frame of the contract it was checked against -/
theorem HandleChecked.refines (hdesc : enc.Describes crates) (hsplit : crates.SplitsScripts)
    (hspan : contract.compiled.stateSpan.len =
      enc.stateWidth artifact.silAbi contract.runtimeState.fields)
    (hcontract : artifact.silAbi.contract actor.abi.contract = some contract) :
    ∃ parts, HandleRefines enc crates.toHashes artifact template actor contract parts := by
  obtain ⟨parts, hparts, hcontext⟩ := hdesc _ _ _ _ h.encoded
  have hfixes := h.fixes hsplit hspan (by rw [hcontext, FieldEncoding.length_of_parts hparts])
  rw [hcontext] at hfixes
  refine ⟨parts,
    { actor_eq := h.actor_eq
      contract_eq := hcontract
      length_parts := ?_
      committed := fun _ hplan _ _ hrole => h.committed_part hparts hplan hrole
      fixes := hfixes
      accepted := fun script hscript => ⟨hfixes.accepts_base hscript, ?_⟩ }⟩
  · have hnames := congrArg List.length (h.leading_names.trans h.contextFields)
    rw [List.length_map, List.length_map] at hnames
    rw [← hparts.length_eq]
    exact hnames
  · obtain ⟨rest, -, hrest⟩ := hfixes.accepts hscript
    exact ⟨rest, hrest⟩

end

/-! ## all handles of an artifact -/

section
variable {enc : FieldEncoding} {crates : Crates} {artifact : Artifact}
  (hdesc : enc.Describes crates) (hsplit : crates.SplitsScripts) (hspan : enc.Spans artifact)
  (habi : ∀ actor ∈ artifact.argent.actors, actor.abi.contract = actor.name)
  (hcheck : Consistent crates artifact)
include hdesc hsplit hspan habi hcheck

theorem exists_handleRefines {template : TemplateReceiptArtifact}
    (htemplate : template ∈ artifact.argent.templatePlan.templates) :
    ∃ actor contract parts,
      HandleRefines enc crates.toHashes artifact template actor contract parts := by
  obtain ⟨index, hplan⟩ := checkConsistency_checked hcheck.plan
  obtain ⟨contract, hcontract, hverify⟩ := hplan.handle_ok template htemplate
  obtain ⟨actor, _, _, _, _, _, hhandle⟩ := verifyActorTypeHandle_ok hverify
  have hname : actor.name = template.actor := by simpa using List.find?_some hhandle.actor_eq
  have hown : artifact.silAbi.contract actor.abi.contract = some contract := by
    rw [habi actor (List.mem_of_find?_eq_some hhandle.actor_eq), hname,
      (checkTemplate_ok (hplan.template_ok template htemplate)).1]
    exact hcontract
  obtain ⟨parts, hparts⟩ := hhandle.refines hdesc hsplit (hspan _ _ hcontract) hown
  exact ⟨actor, contract, parts, hparts⟩

/-- a script that a handle accepts belongs to the frame of its actor, and to no other one -/
theorem handles_disjoint {first second : TemplateReceiptArtifact}
    (hfirst : first ∈ artifact.argent.templatePlan.templates)
    (hsecond : second ∈ artifact.argent.templatePlan.templates) (hne : first.actor ≠ second.actor)
    (script : Bytes) : ¬ ((handleFrame enc artifact first).Accepts script ∧
      (handleFrame enc artifact second).Accepts script) := by
  rintro ⟨hfirstScript, hsecondScript⟩
  obtain ⟨firstActor, _, _, hf⟩ := exists_handleRefines hdesc hsplit hspan habi hcheck hfirst
  obtain ⟨secondActor, _, _, hs⟩ := exists_handleRefines hdesc hsplit hspan habi hcheck hsecond
  have hactors : firstActor ≠ secondActor := by
    rintro rfl
    have hfirstName : firstActor.name = first.actor := by simpa using List.find?_some hf.actor_eq
    have hsecondName : firstActor.name = second.actor := by simpa using List.find?_some hs.actor_eq
    exact hne (hfirstName.symm.trans hsecondName)
  have hsymm : Std.Symm (ScriptsDisjoint artifact) := ⟨fun _ _ h => h.symm⟩
  have hdisjoint : ScriptsDisjoint artifact firstActor secondActor :=
    (verifyTemplateFrames_pairwise hcheck.frames).forall
      (List.mem_of_find?_eq_some hf.actor_eq) (List.mem_of_find?_eq_some hs.actor_eq) hactors
  exact hdisjoint _ _ hf.contract_eq hs.contract_eq script
    ⟨(hf.accepted script hfirstScript).1, (hs.accepted script hsecondScript).1⟩

end

/-- In a consistent artifact whose actors use the contracts of their own names, each handle is the
frame of its actor with the leading fields fixed to the commitments of the plan, and handles of
distinct actors have no script in common. -/
theorem actorTypeHandles_refine (enc : FieldEncoding) (crates : Crates)
    (hdesc : enc.Describes crates) (hsplit : crates.SplitsScripts) (artifact : Artifact)
    (hspan : enc.Spans artifact)
    (habi : ∀ actor ∈ artifact.argent.actors, actor.abi.contract = actor.name)
    (hcheck : artifact.checkConsistency crates = .ok ⟨⟩) :
    (∀ template ∈ artifact.argent.templatePlan.templates, ∃ actor contract parts,
      HandleRefines enc crates.toHashes artifact template actor contract parts) ∧
    ∀ first ∈ artifact.argent.templatePlan.templates,
      ∀ second ∈ artifact.argent.templatePlan.templates, first.actor ≠ second.actor →
        ∀ script, ¬ ((handleFrame enc artifact first).Accepts script ∧
          (handleFrame enc artifact second).Accepts script) := by
  have hconsistent := checkConsistency_ok hcheck
  constructor
  · intro template htemplate
    exact exists_handleRefines hdesc hsplit hspan habi hconsistent htemplate
  · intro first hfirst second hsecond hne script
    exact handles_disjoint hdesc hsplit hspan habi hconsistent hfirst hsecond hne script

/-! ## a sample -/

/-- states written as data pushes, and hashes looked up among the given ones -/
def pushCrates (blake3 : List (Bytes × Digest)) (templateHashes : List ((Bytes × Bytes) × Digest)) :
    Crates where
  blake3 bytes := (blake3.lookup bytes).getD default
  hexEncode := hexText
  hexDecode := parseHex
  checkSchemaVersion _ := .ok ()
  checkSilAbi _ := .ok ()
  scriptParts := splitScript
  templateHash leading trailing := (templateHashes.lookup (leading, trailing)).getD default
  encodeRuntimeStateScript _ state values := pushState state values
  decodeRuntimeStateScript _ state script := popFields ∅ state.fields script
  codecText _ := "codec error"
  artifactJson _ := .ok []
  blake2b256 _ := Digest.repeated 0

theorem pushCrates_describes (blake3 : List (Bytes × Digest))
    (templateHashes : List ((Bytes × Bytes) × Digest)) :
    pushEncoding.Describes (pushCrates blake3 templateHashes) :=
  fun _ _ _ _ h => pushState_parts h

theorem pushCrates_splitsScripts (blake3 : List (Bytes × Digest))
    (templateHashes : List ((Bytes × Bytes) × Digest)) :
    (pushCrates blake3 templateHashes).SplitsScripts :=
  fun _ _ _ h => splitScript_ok h

/-- the code of a sample contract: two bytes, the pushed state, one byte -/
def hiveContract (byte : UInt8) (state : Bytes) (templateHash : Digest)
    (fields : List RuntimeFieldArtifact) (entries : BTreeMap String SilEntryArtifact) :
    SilContractArtifact where
  runtimeState := ⟨"State", fields⟩
  entries := entries
  compiled := ⟨[1, byte] ++ state ++ [9], templateHash, ⟨2, state.length⟩⟩

def queenHash : Digest where
  bytes := [253, 210, 255, 140, 6, 63, 193, 219, 41, 234, 153, 11, 66, 171, 142, 112, 233, 13, 160,
    11, 85, 163, 233, 254, 44, 170, 110, 239, 189, 183, 254, 51]
  length_bytes := rfl

def workerHash : Digest where
  bytes := [75, 64, 74, 40, 63, 237, 23, 45, 86, 139, 10, 154, 176, 139, 159, 142, 108, 213, 107, 68,
    253, 155, 172, 52, 93, 155, 250, 137, 150, 23, 222, 136]
  length_bytes := rfl

def droneHash : Digest where
  bytes := [28, 131, 152, 6, 77, 123, 172, 162, 158, 227, 103, 67, 195, 94, 173, 32, 164, 45, 14, 8,
    209, 125, 205, 172, 195, 30, 100, 218, 64, 206, 154, 16]
  length_bytes := rfl

/-- the hash of the table of the queen and the worker -/
def casteDigest : Digest where
  bytes := [63, 180, 18, 75, 165, 112, 191, 205, 182, 208, 142, 250, 157, 147, 90, 52, 174, 16, 177,
    144, 147, 85, 161, 103, 227, 113, 89, 78, 245, 191, 5, 131]
  length_bytes := rfl

def queenHandleHash : Digest where
  bytes := [100, 174, 21, 240, 154, 31, 232, 30, 129, 201, 131, 215, 229, 155, 164, 98, 37, 226, 234,
    67, 94, 247, 90, 52, 33, 177, 176, 229, 150, 73, 245, 107]
  length_bytes := rfl

def queenHandle : ActorTemplateArtifact where
  leading := [1, 10, 64] ++ queenHash.bytes ++ workerHash.bytes
  trailing := [9]
  hash := queenHandleHash

def workerHandleHash : Digest where
  bytes := [86, 99, 80, 6, 144, 60, 122, 148, 116, 155, 61, 131, 162, 211, 189, 133, 102, 230, 164,
    195, 189, 155, 90, 144, 247, 91, 76, 121, 136, 188, 220, 164]
  length_bytes := rfl

def workerHandle : ActorTemplateArtifact where
  leading := [1, 11, 32] ++ casteDigest.bytes
  trailing := [9]
  hash := workerHandleHash

def hiveCrates : Crates :=
  pushCrates [(queenHash.bytes ++ workerHash.bytes, casteDigest)]
    [(([1, 10], [9]), queenHash), (([1, 11], [9]), workerHash), (([1, 12], [9]), droneHash),
      ((queenHandle.leading, [9]), queenHandle.hash),
      ((workerHandle.leading, [9]), workerHandle.hash)]

/-- a hidden parameter for an output of the brood -/
def broodParam (name handle actor : String) (purpose : HiddenParamPurposeArtifact) :
    HiddenParamArtifact where
  recipeId := "recipe/" ++ name
  name := name
  ty := if purpose = .spawnOutputIndex then .int else .bytes
  subject := .spawnActor "brood" handle actor
  purpose := purpose
  routeProofId := none

def broodParams : List HiddenParamArtifact :=
  [broodParam "grub_index" "grub" "kind" .spawnOutputIndex,
    broodParam "twin_index" "twin" "Drone" .spawnOutputIndex,
    broodParam "grub_prefix" "grub" "kind" .templatePrefixBytes,
    broodParam "grub_suffix" "grub" "kind" .templateSuffixBytes]

/-- spawns an actor of a kind that its caller chooses, and a twin -/
def breedEntry : EntryArtifact where
  name := "breed"
  kind := .leader
  abi := ⟨"Drone", "breed"⟩
  witnessRecipeIds := []
  hiddenParams := broodParams
  templateSelectors := []
  observes := []
  spawns := [⟨"brood", "brood_id",
    [⟨"grub", "kind", "Cell", 0, .one, none⟩, ⟨"twin", "Drone", "Cell", 1, .one, none⟩]⟩]
  witnesses := []
  consumes := []
  emits := .none
  routes := []

def breedSilEntry : SilEntryArtifact where
  params := ⟨"kind", .fixedBytes 32⟩ :: broodParams.map fun param => ⟨param.name, param.ty⟩

def hiveActor (name : String) (entries : List EntryArtifact) : ActorArtifact :=
  ⟨name, "Cell", ⟨name⟩, [], entries⟩

def hiveReceipt (actor : String) (hash : Digest) (contextFields : List String)
    (handle : ActorTemplateArtifact) : TemplateReceiptArtifact where
  id := "template/" ++ actor
  actor := actor
  contract := actor
  symbol := actor
  silTemplateHash := hash
  actorTypeHandle := ⟨"Cell", contextFields, handle⟩

/-- the queen carries the table of the caste, the worker its digest, and the drone neither -/
def hivePlan : TemplatePlanArtifact where
  templates := [hiveReceipt "Queen" queenHash ["routes"] queenHandle,
    hiveReceipt "Worker" workerHash ["caste"] workerHandle,
    hiveReceipt "Drone" droneHash [] ⟨[1, 12], [9], droneHash⟩]
  runtimeStates := [⟨"Queen", "Cell", [⟨"routes", .templateTable ["Queen", "Worker"]⟩]⟩,
    ⟨"Worker", "Cell", [⟨"caste", .templateDigest "caste"⟩]⟩]
  routeTables := [⟨"route_table/Cell/routes", "Cell", "routes", 64,
    [⟨0, 0, .template "Queen" "template/Queen"⟩, ⟨1, 32, .template "Worker" "template/Worker"⟩]⟩]
  routeProofs := [⟨"route_proof/Cell/routes", "route_table/Cell/routes", "Cell", "routes",
    hexText casteDigest.bytes,
    [⟨0, .template "Queen" "template/Queen", hexText queenHash.bytes,
        [⟨.right, hexText workerHash.bytes⟩]⟩,
      ⟨1, .template "Worker" "template/Worker", hexText workerHash.bytes,
        [⟨.left, hexText queenHash.bytes⟩]⟩]⟩]
  routeFamilies := [⟨"caste", "Cell", "Queen", [], "route_table/Cell/routes", ["Queen", "Worker"]⟩]
  witnessRecipes := broodParams.map fun param =>
    ⟨param.recipeId, none, param.subject, param.name, param.purpose, none⟩

def hive : Artifact :=
  { Artifact.blank with
    id := hexText (Digest.repeated 0).bytes
    app := "Hive"
    argent := { Artifact.blank.argent with
      templates := ["Queen", "Worker", "Drone"].map fun actor => ⟨"template/" ++ actor, actor, actor⟩
      templatePlan := hivePlan
      states := [⟨"Cell", [⟨"age", .byte⟩]⟩]
      actors := [hiveActor "Queen" [], hiveActor "Worker" [], hiveActor "Drone" [breedEntry]] }
    silAbi := { Artifact.blank.silAbi with
      contracts := BTreeMap.ofList [
        ("Queen", hiveContract 10 (64 :: List.replicate 64 0 ++ [1, 0]) queenHash
          [⟨"routes", .fixedBytes 64⟩, ⟨"age", .byte⟩] ∅),
        ("Worker", hiveContract 11 (32 :: List.replicate 32 0 ++ [1, 0]) workerHash
          [⟨"caste", .fixedBytes 32⟩, ⟨"age", .byte⟩] ∅),
        ("Drone", hiveContract 12 [1, 0] droneHash [⟨"age", .byte⟩]
          (BTreeMap.ofList [("breed", breedSilEntry)]))] } }

theorem hive_isOk : (hive.checkConsistency hiveCrates).isOk = true := by decide +kernel

theorem hive_consistent : hive.checkConsistency hiveCrates = .ok ⟨⟩ := by
  obtain ⟨_, h⟩ := exists_ok_of_isOk hive_isOk
  exact h

theorem hive_spans : pushEncoding.Spans hive := by
  intro name contract hcontract
  have hmem := BTreeMap.mem_of_get_ofList hcontract
  simp only [List.mem_cons, Prod.mk.injEq, List.not_mem_nil, or_false] at hmem
  obtain ⟨-, rfl⟩ | ⟨-, rfl⟩ | ⟨-, rfl⟩ := hmem <;> decide

theorem actorTypeHandles_refine_sample :
    (∀ template ∈ hivePlan.templates, ∃ actor contract parts,
      HandleRefines pushEncoding hiveCrates.toHashes hive template actor contract parts) ∧
    ∀ first ∈ hivePlan.templates, ∀ second ∈ hivePlan.templates, first.actor ≠ second.actor →
      ∀ script, ¬ ((handleFrame pushEncoding hive first).Accepts script ∧
        (handleFrame pushEncoding hive second).Accepts script) :=
  actorTypeHandles_refine pushEncoding hiveCrates (pushCrates_describes _ _)
    (pushCrates_splitsScripts _ _) hive hive_spans (by decide) hive_consistent

/-! ## actors with the contracts of others -/

def guestHash : Digest where
  bytes := [217, 157, 240, 169, 52, 232, 57, 177, 233, 99, 69, 235, 44, 38, 175, 64, 165, 19, 84, 172,
    137, 116, 237, 44, 167, 223, 159, 154, 245, 235, 136, 91]
  length_bytes := rfl

def firstHostHash : Digest where
  bytes := [14, 220, 213, 26, 86, 175, 175, 79, 223, 213, 51, 175, 46, 189, 195, 107, 31, 7, 118, 13,
    199, 140, 177, 22, 91, 204, 19, 125, 108, 22, 168, 13]
  length_bytes := rfl

def secondHostHash : Digest where
  bytes := [10, 150, 175, 112, 154, 22, 171, 227, 212, 130, 79, 16, 234, 103, 78, 189, 94, 223, 188,
    211, 147, 67, 113, 133, 157, 48, 52, 72, 41, 220, 53, 16]
  length_bytes := rfl

/-- one byte of code and no state -/
def guestContract (byte : UInt8) (templateHash : Digest) : SilContractArtifact where
  runtimeState := ⟨"Cell", []⟩
  entries := ∅
  compiled := ⟨[byte], templateHash, ⟨0, 0⟩⟩

def guestReceipt (actor : String) : TemplateReceiptArtifact :=
  ⟨"template/" ++ actor, actor, actor, actor, guestHash, "Cell", [], [], [7], guestHash⟩

def guestCrates : Crates := pushCrates [] [(([], [7]), guestHash)]

/-- the frames of the contracts that the actors use are checked, those of the contracts of their
names are not -/
def guests : Artifact :=
  { Artifact.blank with
    id := hexText (Digest.repeated 0).bytes
    app := "Guests"
    argent := { Artifact.blank.argent with
      templates := ["Ant", "Bee"].map fun actor => ⟨"template/" ++ actor, actor, actor⟩
      templatePlan := ⟨["Ant", "Bee"].map guestReceipt, [], [], [], [], []⟩
      states := [⟨"Cell", []⟩]
      actors := [⟨"Ant", "Cell", ⟨"Host1"⟩, [], []⟩, ⟨"Bee", "Cell", ⟨"Host2"⟩, [], []⟩] }
    silAbi := { Artifact.blank.silAbi with
      contracts := BTreeMap.ofList [("Ant", guestContract 7 guestHash),
        ("Bee", guestContract 7 guestHash), ("Host1", guestContract 1 firstHostHash),
        ("Host2", guestContract 2 secondHostHash)] } }

theorem guests_spans : pushEncoding.Spans guests := by
  intro name contract hcontract
  have hmem := BTreeMap.mem_of_get_ofList hcontract
  simp only [List.mem_cons, Prod.mk.injEq, List.not_mem_nil, or_false] at hmem
  obtain ⟨-, rfl⟩ | ⟨-, rfl⟩ | ⟨-, rfl⟩ | ⟨-, rfl⟩ := hmem <;> rfl

/-- a consistent artifact with handles of distinct actors that share a script, which the frame of
neither actor accepts -/
theorem actorTypeHandles_clash :
    pushEncoding.Describes guestCrates ∧ guestCrates.SplitsScripts ∧ pushEncoding.Spans guests ∧
    guests.checkConsistency guestCrates = .ok ⟨⟩ ∧
    (handleFrame pushEncoding guests (guestReceipt "Ant")).Accepts [7] ∧
    (handleFrame pushEncoding guests (guestReceipt "Bee")).Accepts [7] ∧
    ¬ (guestContract 1 firstHostHash).compiled.frame.Accepts [7] ∧
    ¬ (guestContract 2 secondHostHash).compiled.frame.Accepts [7] := by
  have hcheck : (guests.checkConsistency guestCrates).isOk = true := by decide +kernel
  obtain ⟨_, hcheck⟩ := exists_ok_of_isOk hcheck
  refine ⟨pushCrates_describes _ _, pushCrates_splitsScripts _ _, guests_spans, hcheck,
    ⟨[], rfl, rfl⟩, ⟨[], rfl, rfl⟩, ?_, ?_⟩
  · intro h
    exact absurd h.trailing (by decide)
  · intro h
    exact absurd h.trailing (by decide)

end Argent.Artifacts
