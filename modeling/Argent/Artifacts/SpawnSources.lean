import Argent.Artifacts.Spawns

/-!
# Where spawned actors get their templates

What the check of the spawn metadata establishes of an entry: its declarations, its index parameters
and the template source of every spawned actor.

* `SpawnOutputArtifact.templateActor`, `EntryArtifact.firstOutput`      a spawned actor and its first
      output;
* `Indexed`      what the index of the check holds;
* `TemplateSource`      the three sources of a template;
* `spawns_verified_iff`      **an accepted entry has one source for every spawned actor exactly when no
      template bytes are scoped to a later spelling of an actor**.
-/

set_option linter.unusedSectionVars false

namespace Argent.Artifacts
open Argent.Fallible

/-! ## spawned actors -/

/-- the actor that a spawn output is of: its static target, or its expression when it has none -/
def SpawnOutputArtifact.templateActor (output : SpawnOutputArtifact) : Option String :=
  match output.target with
  | some (.staticActor app actor) => some (app ++ "::" ++ actor)
  | some (.dynamicActor _) => none
  | none => some output.actor

theorem spawnTemplateActor_eq_ok {entryId : String} {spawn : SpawnArtifact}
    {output : SpawnOutputArtifact} {actor : String} :
    spawnTemplateActor entryId spawn output = .ok actor ↔ output.templateActor = some actor := by
  unfold spawnTemplateActor SpawnOutputArtifact.templateActor
  cases output.target with
  | none => simp
  | some target => cases target <;> simp

/-- an output of a spawn, with the spawn -/
abbrev SpawnSite := SpawnArtifact × SpawnOutputArtifact

/-- the spawn and the handle of an output -/
def SpawnSite.key (site : SpawnSite) : String ×ₗ String := toLex (site.1.name, site.2.name)

def SpawnSite.subject (site : SpawnSite) : HiddenParamSubjectArtifact :=
  .spawnActor site.1.name site.2.name site.2.actor

/-- the spawn outputs of an entry in declaration order -/
def EntryArtifact.spawnSites (entry : EntryArtifact) : List SpawnSite :=
  entry.spawns.flatMap fun spawn => spawn.outputs.map fun output => (spawn, output)

def firstSite (sites : List SpawnSite) (actor : String) : Option SpawnSite :=
  sites.find? fun site => site.2.templateActor == some actor

/-- the first output of a spawned actor -/
def EntryArtifact.firstOutput (entry : EntryArtifact) (actor : String) : Option SpawnSite :=
  firstSite entry.spawnSites actor

/-! ## the index -/

/-- what the index holds once the outputs `sites` are indexed -/
structure Indexed (sites : List SpawnSite) (index : SpawnIndex) : Prop where
  outputs : ∀ key output, index.outputs.get key = some output ↔
    ∃ site ∈ sites, site.key = key ∧ site.2 = output
  distinct : (sites.map SpawnSite.key).Nodup
  templateSubjects : ∀ actor, index.templateSubjects.get actor =
    (firstSite sites actor).map fun site => (site.2.actor, site.1.name, site.2.name)
  actors : ∀ site ∈ sites, site.2.templateActor.isSome = true

theorem Indexed.nil : Indexed [] ⟨∅, ∅⟩ :=
  ⟨fun _ _ => by simp, List.nodup_nil, fun _ => rfl, fun _ h => absurd h List.not_mem_nil⟩

theorem Indexed.step {entryId : String} {spawn : SpawnArtifact} {sites : List SpawnSite}
    {index index' : SpawnIndex} {item : SpawnOutputArtifact × Nat} (h : Indexed sites index)
    (hstep : indexSpawnOutput entryId spawn index item = .ok index') :
    Indexed (sites ++ [(spawn, item.1)]) index' := by
  obtain ⟨-, hstep⟩ := check_eq_ok.mp hstep
  obtain ⟨hnew, hstep⟩ := check_eq_ok.mp hstep
  obtain ⟨actor, hactor, hstep⟩ := bind_eq_ok.mp hstep
  obtain rfl := pure_eq_ok.mp hstep
  rw [rejectIf_eq_ok] at hnew
  rw [spawnTemplateActor_eq_ok] at hactor
  have hfresh : index.outputs.get (toLex (spawn.name, item.1.name)) = none := by
    simpa [BTreeMap.contains] using hnew
  have hkey : ∀ site ∈ sites, site.key ≠ SpawnSite.key (spawn, item.1) := by
    intro site hsite heq
    have hget := (h.outputs site.key site.2).mpr ⟨site, hsite, rfl, rfl⟩
    rw [heq] at hget
    cases hfresh.symm.trans hget
  refine ⟨fun key output => ?_, ?_, fun actor' => ?_, fun site hsite => ?_⟩
  · show (index.outputs.insert (SpawnSite.key (spawn, item.1)) item.1).get key = _ ↔ _
    rw [BTreeMap.get_insert]
    split_ifs with hk
    · constructor
      · intro heq
        exact ⟨(spawn, item.1), by simp, hk.symm, Option.some.inj heq⟩
      · rintro ⟨site, hsite, hsk, rfl⟩
        obtain hsite | hsite := List.mem_append.mp hsite
        · exact absurd (hsk.trans hk) (hkey site hsite)
        · rw [List.mem_singleton.mp hsite]
    · rw [h.outputs]
      constructor
      · rintro ⟨site, hsite, hsk, hout⟩
        exact ⟨site, List.mem_append_left _ hsite, hsk, hout⟩
      · rintro ⟨site, hsite, hsk, hout⟩
        obtain hsite | hsite := List.mem_append.mp hsite
        · exact ⟨site, hsite, hsk, hout⟩
        · rw [List.mem_singleton.mp hsite] at hsk
          exact absurd hsk.symm hk
  · rw [List.map_append, List.map_singleton, ← List.concat_eq_append]
    refine List.Nodup.concat (fun hmem => ?_) h.distinct
    obtain ⟨site, hsite, heq⟩ := List.mem_map.mp hmem
    exact hkey site hsite heq
  · show (index.templateSubjects.insertIfAbsent actor _).get actor' = _
    rw [BTreeMap.get_insertIfAbsent, h.templateSubjects]
    unfold firstSite
    rw [List.find?_append]
    cases sites.find? fun site => site.2.templateActor == some actor' with
    | some site => rfl
    | none =>
      rw [Option.map_none, Option.none_or, Option.none_or]
      by_cases heq : actor' = actor
      · rw [if_pos heq, List.find?_cons_of_pos (by rw [heq, hactor]; exact beq_self_eq_true _)]
        rfl
      · rw [if_neg heq, List.find?_cons_of_neg]
        · rfl
        · rw [hactor, beq_iff_eq, Option.some_inj]
          exact fun he => heq he.symm
  · obtain hsite | hsite := List.mem_append.mp hsite
    · exact h.actors site hsite
    · rw [List.mem_singleton.mp hsite, hactor]
      rfl

theorem Indexed.spawn {entryId : String} {spawn : SpawnArtifact} {sites : List SpawnSite}
    {index index' : SpawnIndex} (h : Indexed sites index)
    (hfold : spawn.outputs.zipIdx.foldlM (indexSpawnOutput entryId spawn) index = .ok index') :
    Indexed (sites ++ spawn.outputs.map fun output => (spawn, output)) index' := by
  have hall := foldlM_ok (fun done index => Indexed
    (sites ++ done.map fun item : SpawnOutputArtifact × Nat => (spawn, item.1)) index) hfold ?_ ?_
  · have hoff : spawn.outputs.zipIdx.map (fun item => (spawn, item.1)) =
        spawn.outputs.map fun output => (spawn, output) := by
      rw [← congrArg (List.map fun output => (spawn, output))
        (List.zipIdx_map_fst 0 spawn.outputs), List.map_map]
      rfl
    rw [← hoff]
    exact hall
  · rw [List.map_nil, List.append_nil]
    exact h
  · intro done index item index' _ hdone hstep
    rw [List.map_append, List.map_singleton, ← List.append_assoc]
    exact hdone.step hstep

/-- the index of a checked entry, and its covenant bindings -/
theorem indexSpawnOutputs_indexed {entryId : String} {entry : EntryArtifact} {index : SpawnIndex}
    (h : indexSpawnOutputs entryId entry = .ok index) :
    Indexed entry.spawnSites index ∧ (entry.spawns.map (·.covenant)).Nodup := by
  obtain ⟨state, hstate, heq⟩ := bind_eq_ok.mp h
  obtain rfl := pure_eq_ok.mp heq
  have hall := foldlM_ok (fun done (state : SpawnNames × SpawnIndex) =>
    Indexed (done.flatMap fun spawn => spawn.outputs.map fun output => (spawn, output)) state.2 ∧
      (done.map (·.covenant)).Nodup ∧ ∀ spawn ∈ done, spawn.covenant ∈ state.1.covenants)
    hstate ⟨Indexed.nil, List.nodup_nil, by simp⟩ ?_
  · exact ⟨hall.1, hall.2.1⟩
  · rintro done state spawn state' _ ⟨hindexed, hnodup, hseen⟩ hstep
    obtain ⟨-, hstep⟩ := check_eq_ok.mp hstep
    obtain ⟨hnew, hstep⟩ := check_eq_ok.mp hstep
    obtain ⟨-, hstep⟩ := check_eq_ok.mp hstep
    obtain ⟨index, hindex, hstep⟩ := bind_eq_ok.mp hstep
    obtain rfl := pure_eq_ok.mp hstep
    rw [rejectIf_eq_ok] at hnew
    refine ⟨?_, ?_, fun other hother => ?_⟩
    · rw [List.flatMap_append, List.flatMap_singleton]
      exact hindexed.spawn hindex
    · rw [List.map_append, List.map_singleton, ← List.concat_eq_append]
      refine List.Nodup.concat (fun hmem => ?_) hnodup
      obtain ⟨other, hother, heq⟩ := List.mem_map.mp hmem
      have hin := hseen other hother
      rw [show other.covenant = spawn.covenant from heq] at hin
      exact hnew hin
    · rw [BTreeSet.mem_insert]
      obtain hother | hother := List.mem_append.mp hother
      · exact Or.inr (hseen other hother)
      · rw [List.mem_singleton.mp hother]
        exact Or.inl rfl

/-! ## template sources -/

/-- the template witnesses scoped to an actor by name -/
def EntryArtifact.actorWitnesses (entry : EntryArtifact) (actor : String) :
    List HiddenParamArtifact := entry.params (isActorSubject actor) isTemplateMaterial

/-- the template bytes scoped to a source expression -/
def EntryArtifact.scopedWitnesses (entry : EntryArtifact) (actorExpr : String) :
    List HiddenParamArtifact := entry.params (isSourceSubject actorExpr) isTemplateBytes

/-- the template bytes scoped to any expression that a spawned actor is written with -/
def EntryArtifact.sourceWitnesses (entry : EntryArtifact) (actor : String) :
    List HiddenParamArtifact :=
  entry.params (fun subject => entry.spawnSites.any fun site =>
    site.2.templateActor == some actor && isSourceSubject site.2.actor subject) isTemplateBytes

/-- one pair of bytes or one pair of lengths -/
def IsTemplatePair (params : List HiddenParamArtifact) : Prop :=
  let count := fun purpose => params.countP fun param => param.purpose == purpose
  (count .templatePrefixBytes = 1 ∧ count .templateSuffixBytes = 1 ∧
      count .templatePrefixLen = 0 ∧ count .templateSuffixLen = 0) ∨
    (count .templatePrefixBytes = 0 ∧ count .templateSuffixBytes = 0 ∧
      count .templatePrefixLen = 1 ∧ count .templateSuffixLen = 1)

/-- an observed output with a dynamic target, declared by the entry -/
def ObservedProvider (entry : EntryArtifact) (actorExpr : String)
    (subject : HiddenParamSubjectArtifact) : Prop :=
  ∃ observe ∈ entry.observes, ∃ output ∈ observe.outputs, ∃ state,
    output.target = .dynamicActor state ∧
      subject = .observedActor observe.name .output output.name actorExpr

/-- The one source of the template of a spawned actor, out of the template bytes `sources` scoped to its
source expressions: a pair scoped to the actor, the active template, or a pair of one provider. -/
inductive TemplateSource (entry : EntryArtifact) (actor : String) (first : SpawnSite)
    (sources : List HiddenParamArtifact) : Prop
  | actorScoped (pair : IsTemplatePair (entry.actorWitnesses actor)) (alone : sources = [])
  | active (none : entry.actorWitnesses actor = []) (self : actor = entry.abi.contract)
    (alone : sources = [])
  | sourceScoped (none : entry.actorWitnesses actor = []) (other : actor ≠ entry.abi.contract)
    (before after : HiddenParamArtifact)
    (bytesBefore : sources.filter (·.purpose == .templatePrefixBytes) = [before])
    (bytesAfter : sources.filter (·.purpose == .templateSuffixBytes) = [after])
    (common : after.subject = before.subject)
    (provider : before.subject = first.subject ∨ ObservedProvider entry first.2.actor before.subject)

section
variable {entryId : String} {entry : EntryArtifact} {actor actorExpr : String} {first : SpawnSite}

theorem observedProvider_of_valid {subject : HiddenParamSubjectArtifact}
    (h : validObservedTemplateProvider entry subject actorExpr = true) :
    ObservedProvider entry actorExpr subject := by
  unfold validObservedTemplateProvider at h
  split at h
  next subject name handle expr =>
    obtain ⟨hexpr, hfind⟩ := Bool.and_eq_true_iff.mp h
    split at hfind
    next output hsome =>
      obtain ⟨observe, hobserve, houtput⟩ := Option.bind_eq_some_iff.mp hsome
      split at hfind
      next target state htarget =>
        refine ⟨observe, List.mem_of_find?_eq_some hobserve, output,
          List.mem_of_find?_eq_some houtput, state, htarget, ?_⟩
        have hname := List.find?_some hobserve
        have hhandle := List.find?_some houtput
        rw [beq_iff_eq] at hname hhandle hexpr
        rw [hname, hhandle, hexpr]
      next => cases hfind
    next => cases hfind
  next => cases h

theorem filter_scopedWitnesses {purpose : HiddenParamPurposeArtifact}
    (h : isTemplateBytes purpose = true) :
    (entry.scopedWitnesses actorExpr).filter (·.purpose == purpose) =
      entry.params (isSourceSubject actorExpr) (· == purpose) := by
  unfold EntryArtifact.scopedWitnesses EntryArtifact.params
  rw [List.filter_filter]
  refine List.filter_congr fun param _ => ?_
  by_cases hp : param.purpose = purpose
  · simp [hp, h]
  · simp only [beq_false_of_ne hp, Bool.false_and, Bool.and_false]

theorem verifySourceParam_ok {purpose : HiddenParamPurposeArtifact}
    (h : verifySourceParam entryId entry first.2.actor first.1.name first.2.name purpose = .ok ⟨⟩) :
    ∃ param, entry.params (isSourceSubject first.2.actor) (· == purpose) = [param] ∧
      (param.subject = first.subject ∨ ObservedProvider entry first.2.actor param.subject) := by
  unfold verifySourceParam at h
  dsimp only at h
  split at h
  next param hparam =>
    rw [rejectIf_eq_ok, not_and_or, not_not, Bool.not_eq_false] at h
    exact ⟨param, hparam, h.imp id observedProvider_of_valid⟩
  next => cases h

theorem find?_of_filter {l : List HiddenParamArtifact} {p : HiddenParamArtifact → Bool}
    {param : HiddenParamArtifact} (h : l.filter p = [param]) : l.find? p = some param := by
  rw [← List.head?_filter, h]
  rfl

/-- what the check of one spawned actor establishes -/
theorem verifySpawnTemplateSubject_ok
    (h : verifySpawnTemplateSubject entryId entry
      (actor, first.2.actor, first.1.name, first.2.name) = .ok ⟨⟩) :
    TemplateSource entry actor first (entry.scopedWitnesses first.2.actor) := by
  unfold verifySpawnTemplateSubject at h
  dsimp only at h
  split_ifs at h with hactor hself
  · obtain ⟨halone, h⟩ := check_eq_ok.mp h
    rw [rejectIf_eq_ok, not_not] at halone h
    refine .actorScoped ?_ halone
    unfold IsTemplatePair
    simp only [Prod.mk.injEq] at h
    obtain ⟨⟨h1, h2⟩, h3, h4⟩ | ⟨⟨h1, h2⟩, h3, h4⟩ := h
    · exact Or.inl ⟨h1, h2, h3, h4⟩
    · exact Or.inr ⟨h1, h2, h3, h4⟩
  · rw [rejectIf_eq_ok, not_not] at h
    exact .active (not_not.mp hactor) hself h
  · obtain ⟨hcommon, h⟩ := check_eq_ok.mp h
    obtain ⟨hbefore, hafter⟩ := check_eq_ok.mp h
    obtain ⟨before, hbefore, hprovider⟩ := verifySourceParam_ok hbefore
    obtain ⟨after, hafter, _⟩ := verifySourceParam_ok hafter
    rw [← filter_scopedWitnesses rfl] at hbefore hafter
    refine .sourceScoped (not_not.mp hactor) hself before after hbefore hafter ?_ hprovider
    have hfind := find?_of_filter hbefore
    have hfind' := find?_of_filter hafter
    unfold EntryArtifact.scopedWitnesses at hfind hfind'
    rw [rejectIf_eq_ok, hfind, hfind'] at hcommon
    simpa [eq_comm] using hcommon

end

/-! ## the whole check -/

/-- what an accepted entry is meant to satisfy -/
structure SpawnsVerified (entry : EntryArtifact) : Prop where
  names : (entry.spawns.map (·.name)).Nodup
  covenants : (entry.spawns.map (·.covenant)).Nodup
  groups : ∀ spawn ∈ entry.spawns, SpawnIndexed spawn
  /-- every output has one index parameter, and every index parameter one output -/
  indexed : ∀ site ∈ entry.spawnSites,
    (entry.params (· == site.subject) (· == .spawnOutputIndex)).length = 1
  outputs : ∀ param ∈ entry.hiddenParams, param.purpose = .spawnOutputIndex →
    ∃ site ∈ entry.spawnSites, param.subject = site.subject ∧
      ∀ other ∈ entry.spawnSites, param.subject = other.subject → other = site
  sources : ∀ site ∈ entry.spawnSites, ∃ actor first, site.2.templateActor = some actor ∧
    entry.firstOutput actor = some first ∧
      TemplateSource entry actor first (entry.sourceWitnesses actor)
  declared : ∀ param ∈ entry.hiddenParams, ∀ spawn handle actor,
    param.subject = .spawnActor spawn handle actor →
      ∃ site ∈ entry.spawnSites, site.1.name = spawn ∧ site.2.name = handle ∧ site.2.actor = actor

/-- no template bytes are scoped to an expression of a spawned actor that differs from the one of
its first output -/
def LaterSpellingsUnused (entry : EntryArtifact) : Prop :=
  ∀ site ∈ entry.spawnSites, ∀ actor first, site.2.templateActor = some actor →
    entry.firstOutput actor = some first → site.2.actor ≠ first.2.actor →
      entry.scopedWitnesses site.2.actor = []

section
variable {entryId : String} {entry : EntryArtifact} {actor : String} {first : SpawnSite}

theorem firstOutput_mem (h : entry.firstOutput actor = some first) :
    first ∈ entry.spawnSites ∧ first.2.templateActor = some actor := by
  refine ⟨List.mem_of_find?_eq_some h, ?_⟩
  have hfound := List.find?_some h
  exact beq_iff_eq.mp hfound

theorem exists_firstOutput {site : SpawnSite} (hsite : site ∈ entry.spawnSites)
    (h : site.2.templateActor = some actor) : ∃ first, entry.firstOutput actor = some first := by
  apply Option.isSome_iff_exists.mp
  rw [EntryArtifact.firstOutput, firstSite, List.find?_isSome]
  exact ⟨site, hsite, beq_iff_eq.mpr h⟩

theorem mem_scopedWitnesses {actorExpr : String} {param : HiddenParamArtifact} :
    param ∈ entry.scopedWitnesses actorExpr ↔ param ∈ entry.hiddenParams ∧
      isSourceSubject actorExpr param.subject = true ∧ isTemplateBytes param.purpose = true := by
  unfold EntryArtifact.scopedWitnesses EntryArtifact.params
  rw [List.mem_filter, Bool.and_eq_true_iff]

theorem mem_sourceWitnesses {param : HiddenParamArtifact} :
    param ∈ entry.sourceWitnesses actor ↔ ∃ site ∈ entry.spawnSites,
      site.2.templateActor = some actor ∧ param ∈ entry.scopedWitnesses site.2.actor := by
  unfold EntryArtifact.sourceWitnesses EntryArtifact.params
  rw [List.mem_filter, Bool.and_eq_true_iff, List.any_eq_true]
  simp only [mem_scopedWitnesses, Bool.and_eq_true_iff, beq_iff_eq]
  constructor
  · rintro ⟨hparam, ⟨site, hsite, hactor, hsubject⟩, hbytes⟩
    exact ⟨site, hsite, hactor, hparam, hsubject, hbytes⟩
  · rintro ⟨site, hsite, hactor, hparam, hsubject, hbytes⟩
    exact ⟨hparam, ⟨site, hsite, hactor, hsubject⟩, hbytes⟩

theorem isSourceSubject_unique {expr expr' : String} {subject : HiddenParamSubjectArtifact}
    (h : isSourceSubject expr subject = true) (h' : isSourceSubject expr' subject = true) :
    expr = expr' := by
  unfold isSourceSubject at h h'
  split at h
  · exact (beq_iff_eq.mp h).symm.trans (beq_iff_eq.mp h')
  · exact (beq_iff_eq.mp h).symm.trans (beq_iff_eq.mp h')
  · cases h

/-- without bytes for later spellings, the source witnesses are those of the first expression -/
theorem sourceWitnesses_eq (hunused : LaterSpellingsUnused entry)
    (hfirst : entry.firstOutput actor = some first) :
    entry.sourceWitnesses actor = entry.scopedWitnesses first.2.actor := by
  unfold EntryArtifact.sourceWitnesses EntryArtifact.scopedWitnesses EntryArtifact.params
  refine List.filter_congr fun param hparam => ?_
  obtain ⟨hmem, hactor⟩ := firstOutput_mem hfirst
  by_cases hbytes : isTemplateBytes param.purpose = true
  · rw [hbytes, Bool.and_true, Bool.and_true, Bool.eq_iff_iff, List.any_eq_true]
    constructor
    · rintro ⟨site, hsite, hscoped⟩
      obtain ⟨hsa, hsubject⟩ := Bool.and_eq_true_iff.mp hscoped
      by_cases hexpr : site.2.actor = first.2.actor
      · rw [← hexpr]
        exact hsubject
      · have hnone := hunused site hsite actor first (beq_iff_eq.mp hsa) hfirst hexpr
        have hin := mem_scopedWitnesses.mpr ⟨hparam, hsubject, hbytes⟩
        rw [hnone] at hin
        exact absurd hin List.not_mem_nil
    · intro hsubject
      refine ⟨first, hmem, ?_⟩
      rw [hactor, beq_self_eq_true, hsubject]
      rfl
  · rw [Bool.not_eq_true] at hbytes
    rw [hbytes, Bool.and_false, Bool.and_false]

theorem not_isTemplatePair_nil : ¬ IsTemplatePair [] := by
  rintro (⟨h, _⟩ | ⟨_, _, h, _⟩) <;> cases h

theorem isTemplateBytes_cases {purpose : HiddenParamPurposeArtifact}
    (h : isTemplateBytes purpose = true) :
    purpose = .templatePrefixBytes ∨ purpose = .templateSuffixBytes := by
  cases purpose with
  | templatePrefixBytes => exact Or.inl rfl
  | templateSuffixBytes => exact Or.inr rfl
  | _ => cases h

theorem eq_of_filter_singleton {l : List HiddenParamArtifact} {only p q : HiddenParamArtifact}
    {purpose : HiddenParamPurposeArtifact} (h : l.filter (·.purpose == purpose) = [only])
    (hp : p ∈ l) (hpp : p.purpose = purpose) (hq : q ∈ l) (hqp : q.purpose = purpose) : p = q := by
  have hin : ∀ x ∈ l, x.purpose = purpose → x = only := by
    intro x hx hxp
    have hmem : x ∈ l.filter (·.purpose == purpose) :=
      List.mem_filter.mpr ⟨hx, beq_iff_eq.mpr hxp⟩
    rw [h] at hmem
    exact List.mem_singleton.mp hmem
  rw [hin p hp hpp, hin q hq hqp]

theorem unused_of_source (hfirst : entry.firstOutput actor = some first)
    (hcode : TemplateSource entry actor first (entry.scopedWitnesses first.2.actor))
    (hsource : TemplateSource entry actor first (entry.sourceWitnesses actor)) {site : SpawnSite}
    (hsite : site ∈ entry.spawnSites) (hactor : site.2.templateActor = some actor)
    (hne : site.2.actor ≠ first.2.actor) : entry.scopedWitnesses site.2.actor = [] := by
  rw [List.eq_nil_iff_forall_not_mem]
  intro param hparam
  have hin : ∀ {other : SpawnSite} {p}, other ∈ entry.spawnSites →
      other.2.templateActor = some actor → p ∈ entry.scopedWitnesses other.2.actor →
        p ∈ entry.sourceWitnesses actor :=
    fun hother hoa hp => mem_sourceWitnesses.mpr ⟨_, hother, hoa, hp⟩
  obtain ⟨hfirstMem, hfirstActor⟩ := firstOutput_mem hfirst
  have hmem := hin hsite hactor hparam
  -- a parameter of one purpose cannot be scoped to both expressions
  have hclash : ∀ {p}, p ∈ entry.scopedWitnesses first.2.actor → param ≠ p := by
    rintro p hp rfl
    exact hne (isSourceSubject_unique (mem_scopedWitnesses.mp hparam).2.1
      (mem_scopedWitnesses.mp hp).2.1)
  cases hsource with
  | actorScoped _ alone =>
    rw [alone] at hmem
    exact List.not_mem_nil hmem
  | active _ _ alone =>
    rw [alone] at hmem
    exact List.not_mem_nil hmem
  | sourceScoped none other before after hbefore hafter =>
    cases hcode with
    | actorScoped pair _ =>
      rw [none] at pair
      exact not_isTemplatePair_nil pair
    | active _ self _ => exact other self
    | sourceScoped _ _ before' after' hbefore' hafter' =>
      have hown : ∀ {purpose only}, (entry.scopedWitnesses first.2.actor).filter
          (·.purpose == purpose) = [only] → only ∈ entry.scopedWitnesses first.2.actor ∧
            only.purpose = purpose := by
        intro purpose only heq
        have honly : only ∈ (entry.scopedWitnesses first.2.actor).filter (·.purpose == purpose) := by
          rw [heq]
          exact List.mem_singleton_self only
        obtain ⟨h1, h2⟩ := List.mem_filter.mp honly
        exact ⟨h1, beq_iff_eq.mp h2⟩
      obtain ⟨hb, hbp⟩ := hown hbefore'
      obtain ⟨ha, hap⟩ := hown hafter'
      obtain hp | hp := isTemplateBytes_cases (mem_scopedWitnesses.mp hparam).2.2
      · exact hclash hb (eq_of_filter_singleton hbefore hmem hp (hin hfirstMem hfirstActor hb) hbp)
      · exact hclash ha (eq_of_filter_singleton hafter hmem hp (hin hfirstMem hfirstActor ha) hap)

/-- what the four passes establish -/
structure SpawnsChecked (entry : EntryArtifact) (index : SpawnIndex) : Prop where
  sites : Indexed entry.spawnSites index
  counts : ∀ site ∈ entry.spawnSites,
    (entry.params (· == site.subject) (· == .spawnOutputIndex)).length = 1
  sources : ∀ actor first, entry.firstOutput actor = some first →
    TemplateSource entry actor first (entry.scopedWitnesses first.2.actor)
  subjects : ∀ param ∈ entry.hiddenParams, ∀ spawn handle actor,
    param.subject = .spawnActor spawn handle actor →
      ∃ site ∈ entry.spawnSites, site.key = toLex (spawn, handle) ∧ site.2.actor = actor
  indices : ∀ param ∈ entry.hiddenParams, param.purpose = .spawnOutputIndex →
    ∃ spawn handle actor, param.subject = .spawnActor spawn handle actor

theorem verifyEntrySpawns_checked (h : verifyEntrySpawns entryId entry = .ok ⟨⟩) :
    (entry.spawns.map (·.covenant)).Nodup ∧ ∃ index, SpawnsChecked entry index := by
  obtain ⟨index, hindex, h⟩ := bind_eq_ok.mp h
  obtain ⟨hcounts, h⟩ := check_eq_ok.mp h
  obtain ⟨htemplates, hsubjects⟩ := check_eq_ok.mp h
  obtain ⟨hsites, hcovenants⟩ := indexSpawnOutputs_indexed hindex
  refine ⟨hcovenants, index, hsites, fun site hsite => ?_, fun actor first hfirst => ?_, ?_, ?_⟩
  · have hget := (hsites.outputs site.key site.2).mpr ⟨site, hsite, rfl, rfl⟩
    have hcheck := forM_ok_of_mem hcounts (BTreeMap.mem_entries.mpr hget)
    rw [rejectIf_eq_ok, not_not] at hcheck
    exact hcheck
  · have hget : index.templateSubjects.get actor =
        some (first.2.actor, first.1.name, first.2.name) := by
      rw [hsites.templateSubjects, show firstSite entry.spawnSites actor = some first from hfirst]
      rfl
    exact verifySpawnTemplateSubject_ok (forM_ok_of_mem htemplates (BTreeMap.mem_entries.mpr hget))
  · intro param hparam spawn handle actor hsubject
    have hcheck := forM_ok_of_mem hsubjects hparam
    unfold verifySpawnParamSubject at hcheck
    rw [hsubject] at hcheck
    obtain ⟨output, houtput, hcheck⟩ := bind_eq_ok.mp hcheck
    rw [okOr_eq_ok, hsites.outputs] at houtput
    obtain ⟨site, hsite, hkey, rfl⟩ := houtput
    rw [rejectIf_eq_ok, not_or, not_not] at hcheck
    exact ⟨site, hsite, hkey, hcheck.1.symm⟩
  · intro param hparam hpurpose
    have hcheck := forM_ok_of_mem hsubjects hparam
    unfold verifySpawnParamSubject at hcheck
    split at hcheck
    next spawn handle actor hsubject => exact ⟨spawn, handle, actor, hsubject⟩
    next => exact absurd hpurpose (rejectIf_eq_ok.mp hcheck)

/-- an accepted entry satisfies what the check is for exactly when no template bytes are scoped to a
later spelling of a spawned actor; nothing but the sources of the templates depends on it -/
theorem spawns_verified_iff (h : verifyEntrySpawns entryId entry = .ok ⟨⟩) :
    SpawnsVerified entry ↔ LaterSpellingsUnused entry := by
  obtain ⟨⟨hnames, hgroups⟩, -⟩ := verifyEntrySpawns_ok h
  obtain ⟨hcovenants, index, hchecked⟩ := verifyEntrySpawns_checked h
  have hunique : ∀ site ∈ entry.spawnSites, ∀ other ∈ entry.spawnSites, site.key = other.key →
      site = other := fun site hsite other hother heq =>
    List.inj_on_of_nodup_map hchecked.sites.distinct hsite hother heq
  constructor
  · intro hverified site hsite actor first hactor hfirst hne
    obtain ⟨actor', first', hactor', hfirst', hsource⟩ := hverified.sources site hsite
    obtain rfl : actor = actor' := Option.some.inj (hactor.symm.trans hactor')
    obtain rfl : first = first' := Option.some.inj (hfirst.symm.trans hfirst')
    exact unused_of_source hfirst (hchecked.sources actor first hfirst) hsource hsite hactor hne
  · intro hunused
    refine ⟨hnames, hcovenants, hgroups, hchecked.counts, ?_, fun site hsite => ?_, ?_⟩
    · intro param hparam hpurpose
      obtain ⟨spawn, handle, actor, hsubject⟩ := hchecked.indices param hparam hpurpose
      obtain ⟨site, hsite, hkey, rfl⟩ := hchecked.subjects param hparam _ _ _ hsubject
      obtain ⟨rfl, rfl⟩ := Prod.mk.inj (toLex_inj.mp hkey)
      refine ⟨site, hsite, hsubject, fun other hother heq => ?_⟩
      apply hunique other hother site hsite
      injection hsubject.symm.trans heq with hspawn hhandle
      exact congrArg toLex (Prod.ext hspawn.symm hhandle.symm)
    · obtain ⟨actor, hactor⟩ := Option.isSome_iff_exists.mp (hchecked.sites.actors site hsite)
      obtain ⟨first, hfirst⟩ := exists_firstOutput hsite hactor
      refine ⟨actor, first, hactor, hfirst, ?_⟩
      rw [sourceWitnesses_eq hunused hfirst]
      exact hchecked.sources actor first hfirst
    · intro param hparam spawn handle actor hsubject
      obtain ⟨site, hsite, hkey, hactor⟩ := hchecked.subjects param hparam _ _ _ hsubject
      obtain ⟨hname, hhandle⟩ := Prod.mk.inj (toLex_inj.mp hkey)
      exact ⟨site, hsite, hname, hhandle, hactor⟩

end

/-! ## two spellings of one actor -/

def twinParam (name : String) (subject : HiddenParamSubjectArtifact)
    (purpose : HiddenParamPurposeArtifact) : HiddenParamArtifact where
  recipeId := name
  name := name
  ty := .int
  subject := subject
  purpose := purpose
  routeProofId := none

/-- Both outputs are of `lib::Child`, which the second one is written `lib::Child` and the first one
`Child`; the entry has the byte pair of the actor, and with `orphan` one more parameter. -/
def twinEntry (orphan : Bool) : EntryArtifact where
  name := "breed"
  kind := .leader
  abi := ⟨"Parent", "breed"⟩
  witnessRecipeIds := []
  hiddenParams := [
    twinParam "first_index" (.spawnActor "twins" "first" "Child") .spawnOutputIndex,
    twinParam "second_index" (.spawnActor "twins" "second" "lib::Child") .spawnOutputIndex,
    twinParam "child_before" (.actor "lib::Child") .templatePrefixBytes,
    twinParam "child_after" (.actor "lib::Child") .templateSuffixBytes] ++
      if orphan then
        [twinParam "second_before" (.spawnActor "twins" "second" "lib::Child") .templatePrefixBytes]
      else []
  templateSelectors := []
  observes := []
  spawns := [{
    name := "twins"
    covenant := "born"
    outputs := [
      ⟨"first", "Child", "ChildState", 0, .one, some (.staticActor "lib" "Child")⟩,
      ⟨"second", "lib::Child", "ChildState", 1, .one, some (.staticActor "lib" "Child")⟩] }]
  witnesses := []
  consumes := []
  emits := .none
  routes := []

theorem twinEntry_isSome :
    ∀ orphan, (verifyEntrySpawns "Parent::breed" (twinEntry orphan)).toOption.isSome = true := by
  decide +kernel

theorem twinEntry_accepted (orphan : Bool) :
    verifyEntrySpawns "Parent::breed" (twinEntry orphan) = .ok ⟨⟩ :=
  eq_ok_get (twinEntry_isSome orphan)

/-- the check accepts a lone byte witness beside the byte pair of its actor -/
theorem spawns_orphan : ¬ ∀ (entryId : String) (entry : EntryArtifact),
    verifyEntrySpawns entryId entry = .ok ⟨⟩ → SpawnsVerified entry := by
  intro hall
  have hverified := hall _ _ (twinEntry_accepted true)
  obtain ⟨site, hsite, hactor⟩ : ∃ site ∈ (twinEntry true).spawnSites,
      site.2.templateActor = some "lib::Child" := by decide +kernel
  obtain ⟨actor, first, hactor', _, hsource⟩ := hverified.sources site hsite
  obtain rfl : "lib::Child" = actor := Option.some.inj (hactor.symm.trans hactor')
  have hpresent : (twinEntry true).actorWitnesses "lib::Child" ≠ [] := by decide +kernel
  have horphan : (twinEntry true).sourceWitnesses "lib::Child" ≠ [] := by decide +kernel
  cases hsource with
  | actorScoped _ alone => exact horphan alone
  | active none _ _ => exact hpresent none
  | sourceScoped none => exact hpresent none

theorem spawns_verified_twins : SpawnsVerified (twinEntry false) := by
  refine (spawns_verified_iff (twinEntry_accepted false)).mpr ?_
  have hunused : ∀ site ∈ (twinEntry false).spawnSites,
      (twinEntry false).scopedWitnesses site.2.actor = [] := by decide +kernel
  exact fun site hsite _ _ _ _ _ => hunused site hsite

end Argent.Artifacts
