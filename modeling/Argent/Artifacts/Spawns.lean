import Argent.Artifacts.Artifact
import Argent.Base.Fallible
import Argent.Base.Index
import Mathlib.Data.List.Nodup
import Mathlib.Data.Prod.Lex

/-!
# Spawn metadata

The check of the spawn declarations of one entry, and of the hidden parameters that serve them.

* `verifyEntrySpawns`      the four passes of the check;
* `indexSpawnOutputs_ok`      **spawn names and the handles of each spawn are distinct, and an output
                              stands at its group index**.
-/

set_option linter.unusedSectionVars false

namespace Argent.Artifacts
open Argent.Fallible

/-! ## the index -/

/-- the outputs by spawn and handle; for each template actor its expression and first output -/
structure SpawnIndex where
  outputs : BTreeMap (String ×ₗ String) SpawnOutputArtifact
  templateSubjects : BTreeMap String (String × String × String)

def invalidSpawnMetadata (entryId message : String) : TemplatePlanError :=
  .invalidSpawnMetadata entryId message

def spawnTemplateActor (entryId : String) (spawn : SpawnArtifact) (output : SpawnOutputArtifact) :
    Except TemplatePlanError String :=
  match output.target with
  | some (.staticActor app actor) => .ok (app ++ "::" ++ actor)
  | some (.dynamicActor _) => .error (invalidSpawnMetadata entryId
      ("spawn `" ++ spawn.name ++ "." ++ output.name ++
        "` cannot record a dynamic canonical target"))
  | none => .ok output.actor

def indexSpawnOutput (entryId : String) (spawn : SpawnArtifact) (index : SpawnIndex)
    (item : SpawnOutputArtifact × Nat) : Except TemplatePlanError SpawnIndex := do
  let (output, expectedIndex) := item
  rejectIf (output.groupIndex ≠ expectedIndex) (invalidSpawnMetadata entryId
    ("spawn `" ++ spawn.name ++ "." ++ output.name ++ "` has group index " ++
      toString output.groupIndex ++ ", expected " ++ toString expectedIndex))
  rejectIf (index.outputs.contains (toLex (spawn.name, output.name))) (invalidSpawnMetadata entryId
    ("spawn `" ++ spawn.name ++ "` repeats output `" ++ output.name ++ "`"))
  let templateActor ← spawnTemplateActor entryId spawn output
  pure
    { outputs := index.outputs.insert (toLex (spawn.name, output.name)) output
      templateSubjects := index.templateSubjects.insertIfAbsent templateActor
        (output.actor, spawn.name, output.name) }

structure SpawnNames where
  spawns : BTreeSet String
  covenants : BTreeSet String

def indexSpawn (entryId : String) (state : SpawnNames × SpawnIndex) (spawn : SpawnArtifact) :
    Except TemplatePlanError (SpawnNames × SpawnIndex) := do
  rejectIf (spawn.name ∈ state.1.spawns)
    (invalidSpawnMetadata entryId ("duplicate spawn `" ++ spawn.name ++ "`"))
  rejectIf (spawn.covenant ∈ state.1.covenants)
    (invalidSpawnMetadata entryId ("duplicate covenant binding `" ++ spawn.covenant ++ "`"))
  rejectIf (spawn.outputs = [])
    (invalidSpawnMetadata entryId ("spawn `" ++ spawn.name ++ "` has no outputs"))
  let index ← spawn.outputs.zipIdx.foldlM (indexSpawnOutput entryId spawn) state.2
  pure (⟨insert spawn.name state.1.spawns, insert spawn.covenant state.1.covenants⟩, index)

def indexSpawnOutputs (entryId : String) (entry : EntryArtifact) :
    Except TemplatePlanError SpawnIndex := do
  let state ← entry.spawns.foldlM (indexSpawn entryId) (⟨∅, ∅⟩, ⟨∅, ∅⟩)
  pure state.2

/-! ## hidden parameters -/

/-- the `Debug` text of a purpose -/
def purposeText : HiddenParamPurposeArtifact → String
  | .spawnOutputIndex => "SpawnOutputIndex"
  | .templatePrefixBytes => "TemplatePrefixBytes"
  | .templateSuffixBytes => "TemplateSuffixBytes"
  | .templatePrefixLen => "TemplatePrefixLen"
  | .templateSuffixLen => "TemplateSuffixLen"
  | .templateHash => "TemplateHash"
  | .routeTemplateLeaf => "RouteTemplateLeaf"
  | .routeTemplateProof => "RouteTemplateProof"
  | .routeFamilyTable => "RouteFamilyTable"
  | .routeFamilyProof => "RouteFamilyProof"
  | .stateExpansionPreimage => "StateExpansionPreimage"
  | .observedOutputFieldValue => "ObservedOutputFieldValue"

/-- the parameters with a subject and a purpose -/
def EntryArtifact.params (entry : EntryArtifact) (subject : HiddenParamSubjectArtifact → Bool)
    (purpose : HiddenParamPurposeArtifact → Bool) : List HiddenParamArtifact :=
  entry.hiddenParams.filter fun param => subject param.subject && purpose param.purpose

def verifySpawnOutputIndexParams (entryId : String) (entry : EntryArtifact) (index : SpawnIndex) :
    Except TemplatePlanError PUnit :=
  index.outputs.entries.forM fun item =>
    let (key, output) := item
    let (spawn, handle) := ofLex key
    let subject := HiddenParamSubjectArtifact.spawnActor spawn handle output.actor
    let count := (entry.params (· == subject) (· == .spawnOutputIndex)).length
    rejectIf (count ≠ 1) (invalidSpawnMetadata entryId
      ("spawn `" ++ spawn ++ "." ++ handle ++ "` has " ++ toString count ++
        " hidden params for " ++ purposeText .spawnOutputIndex ++ ", expected one"))

/-- the subject is an observed or a spawned actor under this source expression -/
def isSourceSubject (actorExpr : String) : HiddenParamSubjectArtifact → Bool
  | .observedActor _ _ _ actor => actor == actorExpr
  | .spawnActor _ _ actor => actor == actorExpr
  | _ => false

def isActorSubject (actorSubject : String) : HiddenParamSubjectArtifact → Bool
  | .actor actor => actor == actorSubject
  | _ => false

def isTemplateBytes : HiddenParamPurposeArtifact → Bool
  | .templatePrefixBytes => true
  | .templateSuffixBytes => true
  | _ => false

def isTemplateMaterial : HiddenParamPurposeArtifact → Bool
  | .templatePrefixBytes => true
  | .templateSuffixBytes => true
  | .templatePrefixLen => true
  | .templateSuffixLen => true
  | _ => false

def validObservedTemplateProvider (entry : EntryArtifact) (subject : HiddenParamSubjectArtifact)
    (actorExpr : String) : Bool :=
  match subject with
  | .observedActor observe .output handle actor =>
    actor == actorExpr &&
      match (entry.observes.find? fun candidate => candidate.name == observe).bind fun observe =>
          observe.outputs.find? fun output => output.name == handle with
      | some output =>
        match output.target with
        | .dynamicActor _ => true
        | .staticActor _ _ => false
      | none => false
  | _ => false

/-- a source-scoped witness pair comes from one provider, an observed output or the first spawn -/
def verifySourceParam (entryId : String) (entry : EntryArtifact) (actorExpr spawn handle : String)
    (purpose : HiddenParamPurposeArtifact) : Except TemplatePlanError PUnit := do
  let params := entry.params (isSourceSubject actorExpr) (· == purpose)
  let firstSpawnSubject := HiddenParamSubjectArtifact.spawnActor spawn handle actorExpr
  match params with
  | [param] =>
    rejectIf (param.subject ≠ firstSpawnSubject ∧
        validObservedTemplateProvider entry param.subject actorExpr = false)
      (invalidSpawnMetadata entryId
        ("spawn actor expression `" ++ actorExpr ++ "` " ++ purposeText purpose ++
          " must use an observed output or first spawn output `" ++ spawn ++ "." ++ handle ++
          "` as its subject"))
  | params => .error (invalidSpawnMetadata entryId
      ("spawn actor expression `" ++ actorExpr ++ "` has " ++ toString params.length ++
        " hidden params for " ++ purposeText purpose ++ ", expected one"))

def verifySpawnTemplateSubject (entryId : String) (entry : EntryArtifact)
    (item : String × String × String × String) : Except TemplatePlanError PUnit := do
  let (actorSubject, actorExpr, spawn, handle) := item
  let sourceTemplateParams := entry.params (isSourceSubject actorExpr) isTemplateBytes
  let actorParams := entry.params (isActorSubject actorSubject) isTemplateMaterial
  if actorParams ≠ [] then
    rejectIf (sourceTemplateParams ≠ []) (invalidSpawnMetadata entryId
      ("static spawn actor `" ++ actorSubject ++
        "` mixes actor-scoped and source-scoped template witnesses"))
    let count := fun purpose => actorParams.countP fun param => param.purpose == purpose
    let bytes := (count .templatePrefixBytes, count .templateSuffixBytes)
    let lengths := (count .templatePrefixLen, count .templateSuffixLen)
    rejectIf (¬ ((bytes, lengths) = ((1, 1), (0, 0)) ∨ (bytes, lengths) = ((0, 0), (1, 1))))
      (invalidSpawnMetadata entryId ("static spawn actor `" ++ actorSubject ++
        "` has an invalid shared actor-template witness pair"))
  else if actorSubject = entry.abi.contract then
    rejectIf (sourceTemplateParams ≠ []) (invalidSpawnMetadata entryId
      ("self spawn actor `" ++ actorSubject ++
        "` must use the active template without source-scoped witnesses"))
  else
    let prefixSubject := (sourceTemplateParams.find? fun param =>
      param.purpose == .templatePrefixBytes).map (·.subject)
    let suffixSubject := (sourceTemplateParams.find? fun param =>
      param.purpose == .templateSuffixBytes).map (·.subject)
    rejectIf (prefixSubject.isSome ∧ suffixSubject.isSome ∧ prefixSubject ≠ suffixSubject)
      (invalidSpawnMetadata entryId ("spawn actor expression `" ++ actorExpr ++
        "` template witnesses use different providers"))
    verifySourceParam entryId entry actorExpr spawn handle .templatePrefixBytes
    verifySourceParam entryId entry actorExpr spawn handle .templateSuffixBytes

def verifySpawnTemplateParams (entryId : String) (entry : EntryArtifact) (index : SpawnIndex) :
    Except TemplatePlanError PUnit :=
  index.templateSubjects.entries.forM (verifySpawnTemplateSubject entryId entry)

def isSpawnPurpose : HiddenParamPurposeArtifact → Bool
  | .spawnOutputIndex => true
  | .templatePrefixBytes => true
  | .templateSuffixBytes => true
  | _ => false

def verifySpawnParamSubject (entryId : String) (index : SpawnIndex) (param : HiddenParamArtifact) :
    Except TemplatePlanError PUnit :=
  match param.subject with
  | .spawnActor spawn handle actor => do
    let output ← okOr (index.outputs.get (toLex (spawn, handle))) (invalidSpawnMetadata entryId
      ("hidden param `" ++ param.name ++ "` references unknown spawn output `" ++ spawn ++ "." ++
        handle ++ "`"))
    rejectIf (actor ≠ output.actor ∨ isSpawnPurpose param.purpose = false)
      (invalidSpawnMetadata entryId
        ("hidden param `" ++ param.name ++ "` does not match spawn output `" ++ spawn ++ "." ++
          handle ++ "`"))
  | _ => rejectIf (param.purpose = .spawnOutputIndex) (invalidSpawnMetadata entryId
      ("spawn output index param `" ++ param.name ++ "` has a non-spawn subject"))

def verifySpawnParamSubjects (entryId : String) (entry : EntryArtifact) (index : SpawnIndex) :
    Except TemplatePlanError PUnit :=
  entry.hiddenParams.forM (verifySpawnParamSubject entryId index)

def verifyEntrySpawns (entryId : String) (entry : EntryArtifact) :
    Except TemplatePlanError PUnit := do
  let index ← indexSpawnOutputs entryId entry
  verifySpawnOutputIndexParams entryId entry index
  verifySpawnTemplateParams entryId entry index
  verifySpawnParamSubjects entryId entry index

/-! ## what the index establishes -/

/-- the handles of a spawn are distinct, and each of its outputs stands at its group index -/
structure SpawnIndexed (spawn : SpawnArtifact) : Prop where
  nodup : (spawn.outputs.map (·.name)).Nodup
  groupIndex : ∀ (i : Nat) (output : SpawnOutputArtifact), spawn.outputs[i]? = some output →
    output.groupIndex = i
  nonempty : spawn.outputs ≠ []

theorem indexSpawnOutput_fold {entryId : String} {spawn : SpawnArtifact} {index index' : SpawnIndex}
    {items : List (SpawnOutputArtifact × Nat)}
    (h : items.foldlM (indexSpawnOutput entryId spawn) index = .ok index') :
    (items.map (·.1.name)).Nodup ∧ ∀ item ∈ items, item.1.groupIndex = item.2 := by
  have hall := foldlM_ok (fun done (index : SpawnIndex) =>
    (done.map (·.1.name)).Nodup ∧ (∀ item ∈ done, item.1.groupIndex = item.2) ∧
      ∀ item ∈ done, index.outputs.contains (toLex (spawn.name, item.1.name)) = true)
    h ⟨List.nodup_nil, by simp, by simp⟩ ?_
  · exact ⟨hall.1, hall.2.1⟩
  · rintro done index item index' _ ⟨hnodup, hindex, hseen⟩ hstep
    obtain ⟨hposition, hstep⟩ := check_eq_ok.mp hstep
    obtain ⟨hnew, hstep⟩ := check_eq_ok.mp hstep
    obtain ⟨actor, -, hstep⟩ := bind_eq_ok.mp hstep
    obtain rfl := pure_eq_ok.mp hstep
    rw [rejectIf_eq_ok] at hposition hnew
    refine ⟨?_, fun other hother => ?_, fun other hother => ?_⟩
    · rw [List.map_append, List.map_singleton, ← List.concat_eq_append]
      refine List.Nodup.concat (fun hmem => ?_) hnodup
      obtain ⟨other, hother, hname⟩ := List.mem_map.mp hmem
      have hcontains := hseen other hother
      rw [show other.1.name = item.1.name from hname] at hcontains
      exact hnew hcontains
    · obtain hother | hother := List.mem_append.mp hother
      · exact hindex other hother
      · rw [List.mem_singleton.mp hother]
        exact not_not.mp hposition
    · unfold BTreeMap.contains
      dsimp only
      rw [BTreeMap.get_insert]
      obtain hother | hother := List.mem_append.mp hother
      · split_ifs
        · rfl
        · exact hseen other hother
      · rw [List.mem_singleton.mp hother, if_pos rfl]
        rfl

/-- the spawns of a checked entry have distinct names, and each of them is indexed -/
theorem indexSpawnOutputs_ok {entryId : String} {entry : EntryArtifact} {index : SpawnIndex}
    (h : indexSpawnOutputs entryId entry = .ok index) :
    (entry.spawns.map (·.name)).Nodup ∧ ∀ spawn ∈ entry.spawns, SpawnIndexed spawn := by
  obtain ⟨state, hstate, -⟩ := bind_eq_ok.mp h
  have hall := foldlM_ok (fun done (state : SpawnNames × SpawnIndex) =>
    (done.map (·.name)).Nodup ∧ (∀ spawn ∈ done, spawn.name ∈ state.1.spawns) ∧
      ∀ spawn ∈ done, SpawnIndexed spawn) hstate ⟨List.nodup_nil, by simp, by simp⟩ ?_
  · exact ⟨hall.1, hall.2.2⟩
  · rintro done state spawn state' _ ⟨hnodup, hseen, hindexed⟩ hstep
    obtain ⟨hnew, hstep⟩ := check_eq_ok.mp hstep
    obtain ⟨-, hstep⟩ := check_eq_ok.mp hstep
    obtain ⟨hnonempty, hstep⟩ := check_eq_ok.mp hstep
    obtain ⟨index, hindex, hstep⟩ := bind_eq_ok.mp hstep
    obtain rfl := pure_eq_ok.mp hstep
    rw [rejectIf_eq_ok] at hnew hnonempty
    obtain ⟨hnames, hpositions⟩ := indexSpawnOutput_fold hindex
    refine ⟨?_, fun other hother => ?_, fun other hother => ?_⟩
    · rw [List.map_append, List.map_singleton, ← List.concat_eq_append]
      refine List.Nodup.concat (fun hmem => ?_) hnodup
      obtain ⟨other, hother, hname⟩ := List.mem_map.mp hmem
      have hmem := hseen other hother
      rw [show other.name = spawn.name from hname] at hmem
      exact hnew hmem
    · rw [BTreeSet.mem_insert]
      obtain hother | hother := List.mem_append.mp hother
      · exact Or.inr (hseen other hother)
      · rw [List.mem_singleton.mp hother]
        exact Or.inl rfl
    · obtain hother | hother := List.mem_append.mp hother
      · exact hindexed other hother
      · rw [List.mem_singleton.mp hother]
        refine ⟨?_, fun i output houtput => ?_, hnonempty⟩
        · have hfst : spawn.outputs.zipIdx.map (·.1.name) = spawn.outputs.map (·.name) := by
            rw [← congrArg (List.map (·.name)) (List.zipIdx_map_fst 0 spawn.outputs), List.map_map]
            rfl
          rw [← hfst]
          exact hnames
        · exact hpositions (output, i) (List.mem_zipIdx_iff_getElem?.mpr houtput)

theorem verifyEntrySpawns_ok {entryId : String} {entry : EntryArtifact}
    (h : verifyEntrySpawns entryId entry = .ok ⟨⟩) :
    ((entry.spawns.map (·.name)).Nodup ∧ ∀ spawn ∈ entry.spawns, SpawnIndexed spawn) ∧
      ∃ index, indexSpawnOutputs entryId entry = .ok index ∧
        ∀ param ∈ entry.hiddenParams, verifySpawnParamSubject entryId index param = .ok ⟨⟩ := by
  obtain ⟨index, hindex, h⟩ := bind_eq_ok.mp h
  obtain ⟨-, h⟩ := check_eq_ok.mp h
  obtain ⟨-, h⟩ := check_eq_ok.mp h
  exact ⟨indexSpawnOutputs_ok hindex, index, hindex, fun param hparam => forM_ok_of_mem h hparam⟩

end Argent.Artifacts
