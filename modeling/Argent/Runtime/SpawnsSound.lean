import Argent.Runtime.BindSound
import Argent.Runtime.HiddenArgs

/-!
# What the resolution of spawns guarantees

* `TxBuilder.Phases.namedGenesisGroup_ok`      a group found by its name has the outputs that declare it;
* `TxBuilder.resolveClause_ok`      one clause and its group, position by position;
* `TxBuilder.resolveContextSpawns_matched`      **all clauses of an input share its spawn groups out,
                                                and the index witnesses name the matched outputs**.
-/

set_option linter.unusedSectionVars false

namespace Argent.Runtime
open Argent.Fallible Argent.Sil Argent.Artifacts

/-! ## groups by their names -/

namespace TxBuilder
variable {crates : RuntimeCrates} {builder : TxBuilder crates}

theorem OutputBound.isIn_iff {context : TxContext} {bound : ResolveContext}
    {source : ContextOutput} {output : ResolvedOutput}
    (h : OutputBound crates context bound source output) (key : GenesisGroupKey) :
    output.binding.isIn key = true ↔
      source.covenant = .genesis key.authorizingInput key.name.path := by
  cases hcovenant : source.covenant with
  | unbound =>
    rw [h.unbound hcovenant]
    simp [ResolvedOutputBinding.isIn]
  | existing binding =>
    rw [h.existing binding hcovenant]
    simp [ResolvedOutputBinding.isIn]
  | genesis authorizingInput subgroup =>
    obtain ⟨name, authorizer, hashed, hname, -, -, hbinding⟩ := h.genesis _ _ hcovenant
    rw [hbinding]
    unfold ResolvedOutputBinding.isIn
    rw [Bool.and_eq_true, beq_iff_eq, beq_iff_eq, OutputCovenant.genesis.injEq,
      ← GenesisGroupName.path_parse hname]
    exact and_congr_right fun _ => GenesisGroupName.path_injective.eq_iff.symm

/-- a group found by its name has exactly the outputs that declare it -/
theorem Phases.namedGenesisGroup_ok {context : TxContext} {bound filled : ResolveContext}
    {boundOutputs : List BoundOutput} {groups : GenesisGroups} {stateContext : StateContext}
    (hphases : Phases builder context bound boundOutputs groups stateContext)
    (hfilled : filled.outputs = bound.outputs) {key : GenesisGroupKey} {group : List Nat}
    (h : namedGenesisGroup filled key = some group) :
    group = groupIndices context key.authorizingInput key.name.path ∧ group ≠ [] := by
  unfold namedGenesisGroup at h
  dsimp only at h
  split_ifs at h with hnil
  obtain rfl := Option.some.inj h
  refine ⟨?_, hnil⟩
  rw [hfilled]
  refine Groups.positions_congr
    (p := fun output : ResolvedOutput => output.binding.isIn key)
    (q := fun source : ContextOutput =>
      decide (source.covenant = .genesis key.authorizingInput key.name.path))
    hphases.length_outputs ?_
  intro index output source houtput hsource
  obtain ⟨found, hfound, hat⟩ := hphases.outputBound hsource
  obtain rfl := Option.some.inj (houtput.symm.trans hfound)
  rw [Bool.eq_iff_iff, hat.isIn_iff, decide_eq_true_eq]

/-! ## targets -/

/-- `handle` is the value that a spawn actor expression has for an input -/
inductive ActorExpression (input : ResolveActorInput) (actor : String) (handle : Bytes) : Prop where
  | field (field : String) (expression : stripPrefix "self." actor = some field)
      (value : input.source.state.get field = some (.bytes handle))
  | argument (args : ResolvedEntryArgs) (index : Nat) (param : ParamArtifact)
      (expression : stripPrefix "self." actor = none) (args_eq : input.args = some args)
      (param_eq : input.silEntry.params[index]? = some param) (name_eq : param.name = actor)
      (value : args.values[index]? = some (.bytes handle))

/-- an actor is what the clause of an input declares at an output -/
inductive TargetMatched (builder : TxBuilder crates) (input : ResolveActorInput)
    (output : SpawnOutputArtifact) (actor : ContractRef) : Prop where
  | target (app name : String) (expected : ContractRef)
      (target_eq : output.target = some (.staticActor app name))
      (expected_eq : builder.bundle.observedContractRef input.artifact app name = .ok expected)
      (app_eq : actor.artifact.app = expected.artifact.app) (name_eq : actor.name = expected.name)
      (template_eq : actor.contract.compiled.templateHash = expected.contract.compiled.templateHash)
  | own (contract : SilContractArtifact)
      (own_actor : ∃ candidate ∈ input.artifact.argent.actors, candidate.name = output.actor)
      (contract_eq : input.artifact.silAbi.contract output.actor = some contract)
      (template_eq : actor.contract.compiled.templateHash = contract.compiled.templateHash)
  | dynamic (handle : Bytes)
      (no_actor : ∀ candidate ∈ input.artifact.argent.actors, candidate.name ≠ output.actor)
      (expression : ActorExpression input output.actor handle) (length_handle : handle.length = 32)
      (handle_eq : actorTypeHandleInArtifact actor.artifact actor.name output.state = .ok handle)

theorem dynamicSpawnActorTypeHandle_ok {input : ResolveActorInput} {actor : String} {handle : Bytes}
    (h : dynamicSpawnActorTypeHandle input actor = .ok handle) :
    ActorExpression input actor handle ∧ handle.length = 32 := by
  obtain ⟨args, hargs, h⟩ := bind_eq_ok.mp h
  split at h
  next found hvalue =>
    obtain ⟨hlength, h⟩ := check_eq_ok.mp h
    obtain rfl := pure_eq_ok.mp h
    rw [rejectIf_eq_ok, not_not] at hlength
    refine ⟨?_, hlength⟩
    unfold spawnActorValue at hvalue
    split at hvalue
    next field hfield => exact .field field hfield hvalue
    next hfield =>
      obtain ⟨index, hindex, hvalue⟩ := Option.bind_eq_some_iff.mp hvalue
      obtain ⟨hlt, hname, -⟩ := List.findIdx?_eq_some_iff_getElem.mp hindex
      refine .argument args index _ hfield (expect_eq_ok.mp hargs) ?_ (beq_iff_eq.mp hname) hvalue
      rw [List.getElem_take]
      exact List.getElem?_eq_getElem _
  next => cases h

theorem exposedHandle_ok {spawn : SpawnArtifact} {output : SpawnOutputArtifact} {actor : ContractRef}
    {handle : Bytes} (h : exposedHandle spawn output actor = .ok handle) :
    actorTypeHandleInArtifact actor.artifact actor.name output.state = .ok handle := by
  unfold exposedHandle at h
  split at h
  next heq => rw [heq, h]
  next => cases h
  next => cases h

theorem spawnTargetMatches_ok {input : ResolveActorInput} {spawn : SpawnArtifact}
    {output : SpawnOutputArtifact} {actor : ContractRef}
    (h : builder.spawnTargetMatches input spawn output actor = .ok true) :
    TargetMatched builder input output actor := by
  unfold spawnTargetMatches at h
  split at h
  next app name htarget =>
    obtain ⟨expected, hexpected, h⟩ := bind_eq_ok.mp h
    have hsame := pure_eq_ok.mp h
    rw [Bool.and_eq_true, Bool.and_eq_true, beq_iff_eq, beq_iff_eq, beq_iff_eq] at hsame
    exact .target app name expected htarget hexpected hsame.1.1 hsame.1.2 hsame.2
  next =>
    split_ifs at h with hown
    · obtain ⟨expected, hexpected, h⟩ := bind_eq_ok.mp h
      obtain ⟨candidate, hmem, hname⟩ := List.any_eq_true.mp hown
      exact .own expected ⟨candidate, hmem, beq_iff_eq.mp hname⟩ (okOr_eq_ok.mp hexpected)
        (beq_iff_eq.mp (pure_eq_ok.mp h))
    · obtain ⟨expected, hexpected, h⟩ := bind_eq_ok.mp h
      obtain ⟨found, hfound, h⟩ := bind_eq_ok.mp h
      obtain rfl := beq_iff_eq.mp (pure_eq_ok.mp h)
      obtain ⟨hexpression, hlength⟩ := dynamicSpawnActorTypeHandle_ok hexpected
      refine .dynamic found (fun candidate hmem hname => hown ?_) hexpression hlength
        (exposedHandle_ok hfound)
      exact List.any_eq_true.mpr ⟨candidate, hmem, beq_iff_eq.mpr hname⟩

/-! ## clauses -/

/-- the actor output at `index` of the transaction stands at a position of a clause -/
def PositionMatched (builder : TxBuilder crates) (context : ResolveContext)
    (input : ResolveActorInput) (output : SpawnOutputArtifact) (index : Nat) : Prop :=
  ∃ resolved actor, context.outputs[index]? = some resolved ∧ resolved.owner = .actor actor ∧
    TargetMatched builder input output actor.contract

/-- what a map of spawned actors says of `spawn` is where its outputs were matched -/
def SpawnedFrom (spawn : SpawnArtifact) (group : List Nat) (key : String ×ₗ String)
    (spawned : SpawnedActorContext) : Prop :=
  ∃ (position : Nat) (output : SpawnOutputArtifact), spawn.outputs[position]? = some output ∧
    group[position]? = some spawned.outputIndex ∧ key = toLex (spawn.name, output.name)

theorem resolveSpawnOutput_ok {context : ResolveContext} {input : ResolveActorInput}
    {spawn : SpawnArtifact} {spawnedActors spawnedActors' : ResolvedSpawnActors}
    {item : SpawnOutputArtifact × Nat}
    (h : builder.resolveSpawnOutput context input spawn spawnedActors item = .ok spawnedActors') :
    PositionMatched builder context input item.1 item.2 ∧ ∃ spawned : SpawnedActorContext,
      spawned.outputIndex = item.2 ∧
        spawnedActors' = spawnedActors.insert (toLex (spawn.name, item.1.name)) spawned := by
  obtain ⟨resolved, hresolved, h⟩ := bind_eq_ok.mp h
  split at h
  next => cases h
  next actor howner =>
    obtain ⟨matches_, hmatches, h⟩ := bind_eq_ok.mp h
    obtain ⟨htarget, h⟩ := check_eq_ok.mp h
    obtain rfl := pure_eq_ok.mp h
    rw [rejectIf_eq_ok, Bool.not_eq_false] at htarget
    subst htarget
    exact ⟨⟨resolved, actor, expect_eq_ok.mp hresolved, howner, spawnTargetMatches_ok hmatches⟩,
      ⟨_, _, item.2⟩, rfl, rfl⟩

theorem resolveSpawnGroup_ok {context : ResolveContext} {input : ResolveActorInput}
    {spawn : SpawnArtifact} {group : List Nat} {spawnedActors : ResolvedSpawnActors}
    (h : builder.resolveSpawnGroup context input spawn group = .ok spawnedActors) :
    List.Forall₂ (PositionMatched builder context input) spawn.outputs group ∧
      ∀ key spawned, spawnedActors.get key = some spawned →
        SpawnedFrom spawn group key spawned := by
  obtain ⟨hlength, h⟩ := check_eq_ok.mp h
  rw [rejectIf_eq_ok, not_not] at hlength
  have hall := foldlM_ok (fun done (spawnedActors : ResolvedSpawnActors) =>
    (∀ item ∈ done, PositionMatched builder context input item.1 item.2) ∧
      ∀ key spawned, spawnedActors.get key = some spawned → ∃ item ∈ done,
        spawned.outputIndex = item.2 ∧ key = toLex (spawn.name, item.1.name))
    h ⟨fun _ hmem => absurd hmem List.not_mem_nil, fun _ _ hget => by cases hget⟩ ?_
  · refine ⟨?_, fun key spawned hget => ?_⟩
    · refine List.forall₂_iff_zip.mpr ⟨hlength.symm, fun {output index} hmem => ?_⟩
      exact hall.1 (output, index) hmem
    · obtain ⟨⟨output, index⟩, hmem, hindex, hkey⟩ := hall.2 key spawned hget
      obtain ⟨position, hposition⟩ := List.getElem?_of_mem hmem
      obtain ⟨houtput, hgroup⟩ := List.getElem?_zip_eq_some.mp hposition
      exact ⟨position, output, houtput, by rw [hgroup, hindex], hkey⟩
  · rintro done spawnedActors item spawnedActors' - ⟨hmatched, hfrom⟩ hstep
    obtain ⟨hposition, spawned, hindex, rfl⟩ := resolveSpawnOutput_ok hstep
    refine ⟨fun other hother => ?_, fun key found hget => ?_⟩
    · obtain hother | hother := List.mem_append.mp hother
      · exact hmatched other hother
      · rw [List.mem_singleton.mp hother]
        exact hposition
    · rw [BTreeMap.get_insert] at hget
      split_ifs at hget with hkey
      · obtain rfl := Option.some.inj hget
        exact ⟨item, List.mem_append_right _ List.mem_cons_self, hindex, hkey⟩
      · obtain ⟨other, hother, hrest⟩ := hfrom key found hget
        exact ⟨other, List.mem_append_left _ hother, hrest⟩

/-- a clause of the input at `inputIndex` and the group that it is matched to -/
structure ClauseMatched (builder : TxBuilder crates) (context : TxContext) (filled : ResolveContext)
    (inputIndex : Nat) (input : ResolveActorInput) (spawn : SpawnArtifact) (group : List Nat) :
    Prop where
  group_eq : ∃ authorizingInput : UInt16, authorizingInput.toNat = inputIndex ∧
    group = groupIndices context authorizingInput (GenesisGroupName.spawn spawn.name).path
  ascending : group.Pairwise (· < ·)
  positions : List.Forall₂ (PositionMatched builder filled input) spawn.outputs group

/-- the first output of one group stands before the first output of another -/
def StartsBefore (group next : List Nat) : Prop :=
  ∃ first second, group.head? = some first ∧ next.head? = some second ∧ first < second

theorem toU16_ok {index : Nat} {word : UInt16} (h : toU16 index = some word) :
    word.toNat = index := by
  unfold toU16 at h
  split_ifs at h with hlt
  rw [← Option.some.inj h]
  exact UInt16.toNat_ofNat_of_lt' hlt

/-- the clauses `done` of an input with their groups, and what was recorded of them -/
structure ClausesMatched (builder : TxBuilder crates) (context : TxContext)
    (filled : ResolveContext) (inputIndex : Nat) (input : ResolveActorInput)
    (done : List SpawnArtifact) (groups : List (List Nat))
    (state : ResolvedSpawnActors × Option Nat) : Prop where
  matched : List.Forall₂ (ClauseMatched builder context filled inputIndex input) done groups
  increasing : groups.Pairwise StartsBefore
  last : ∀ group ∈ groups, ∃ first previous, group.head? = some first ∧
    state.2 = some previous ∧ first ≤ previous
  spawned : ∀ key found, state.1.get key = some found →
    ∃ (clause : Nat) (spawn : SpawnArtifact) (group : List Nat), done[clause]? = some spawn ∧
      groups[clause]? = some group ∧ SpawnedFrom spawn group key found

section
variable {context : TxContext} {bound filled : ResolveContext} {boundOutputs : List BoundOutput}
  {groups : GenesisGroups} {stateContext : StateContext} {inputIndex : Nat}
  {input : ResolveActorInput}
  (hphases : Phases builder context bound boundOutputs groups stateContext)
  (hfilled : filled.outputs = bound.outputs)
include hphases hfilled

theorem resolveClause_ok {state state' : ResolvedSpawnActors × Option Nat} {spawn : SpawnArtifact}
    (h : builder.resolveClause filled inputIndex input state spawn = .ok state') :
    ∃ group first spawnedActors,
      ClauseMatched builder context filled inputIndex input spawn group ∧
      group.head? = some first ∧ (∀ previous ∈ state.2, previous < first) ∧
      (∀ key found, spawnedActors.get key = some found → SpawnedFrom spawn group key found) ∧
      state' = (state.1.extend spawnedActors, some first) := by
  obtain ⟨authorizingInput, hauthorizing, h⟩ := bind_eq_ok.mp h
  obtain ⟨group, hgroup, h⟩ := bind_eq_ok.mp h
  obtain ⟨first, hfirst, h⟩ := bind_eq_ok.mp h
  obtain ⟨horder, h⟩ := check_eq_ok.mp h
  obtain ⟨spawnedActors, hspawned, h⟩ := bind_eq_ok.mp h
  obtain rfl := pure_eq_ok.mp h
  obtain ⟨hindices, -⟩ := hphases.namedGenesisGroup_ok hfilled (okOr_eq_ok.mp hgroup)
  obtain ⟨hpositions, hfrom⟩ := resolveSpawnGroup_ok hspawned
  rw [rejectIf_eq_ok, Option.any_eq_true] at horder
  refine ⟨group, first, spawnedActors, ⟨⟨authorizingInput, ?_, hindices⟩, ?_, hpositions⟩,
    expect_eq_ok.mp hfirst, fun previous hprevious => ?_, hfrom, rfl⟩
  · exact toU16_ok (okOr_eq_ok.mp hauthorizing)
  · rw [hindices]
    exact pairwise_groupIndices _ _ _
  · by_contra hle
    exact horder ⟨previous, hprevious, decide_eq_true (Nat.le_of_not_lt hle)⟩

/-- one more clause -/
theorem ClausesMatched.snoc {done : List SpawnArtifact} {found : List (List Nat)}
    {state state' : ResolvedSpawnActors × Option Nat}
    (hdone : ClausesMatched builder context filled inputIndex input done found state)
    {spawn : SpawnArtifact}
    (h : builder.resolveClause filled inputIndex input state spawn = .ok state') :
    ∃ group, ClausesMatched builder context filled inputIndex input (done ++ [spawn])
      (found ++ [group]) state' := by
  obtain ⟨group, first, spawnedActors, hclause, hfirst, hbefore, hfrom, rfl⟩ :=
    resolveClause_ok hphases hfilled h
  have hlength := hdone.matched.length_eq
  refine ⟨group, List.rel_append hdone.matched (.cons hclause .nil), ?_, fun other hother => ?_,
    fun key spawned hget => ?_⟩
  · refine List.pairwise_append.mpr ⟨hdone.increasing, List.pairwise_singleton _ _, ?_⟩
    intro other hother last hlast
    obtain ⟨earlier, previous, hearlier, hprevious, hle⟩ := hdone.last other hother
    rw [List.mem_singleton.mp hlast]
    exact ⟨earlier, first, hearlier, hfirst, Nat.lt_of_le_of_lt hle (hbefore previous hprevious)⟩
  · obtain hother | hother := List.mem_append.mp hother
    · obtain ⟨earlier, previous, hearlier, hprevious, hle⟩ := hdone.last other hother
      exact ⟨earlier, first, hearlier, rfl, (Nat.lt_of_le_of_lt hle (hbefore previous hprevious)).le⟩
    · rw [List.mem_singleton.mp hother]
      exact ⟨first, first, hfirst, rfl, Nat.le_refl _⟩
  · dsimp only at hget
    rw [BTreeMap.get_extend] at hget
    obtain hget | ⟨-, hget⟩ := Option.or_eq_some_iff.mp hget
    · refine ⟨done.length, spawn, group, List.getElem?_concat_length, ?_, hfrom key spawned hget⟩
      rw [hlength]
      exact List.getElem?_concat_length
    · obtain ⟨clause, earlier, group', hearlier, hgroup', hrest⟩ := hdone.spawned key spawned hget
      obtain ⟨hi, -⟩ := List.getElem?_eq_some_iff.mp hearlier
      obtain ⟨hi', -⟩ := List.getElem?_eq_some_iff.mp hgroup'
      refine ⟨clause, earlier, group', ?_, ?_, hrest⟩
      · rw [List.getElem?_append_left hi]
        exact hearlier
      · rw [List.getElem?_append_left hi']
        exact hgroup'

theorem resolveClauses_ok {spawns : List SpawnArtifact}
    {state : ResolvedSpawnActors × Option Nat}
    (h : spawns.foldlM (builder.resolveClause filled inputIndex input) (∅, none) = .ok state) :
    ∃ found, ClausesMatched builder context filled inputIndex input spawns found state := by
  refine foldlM_ok (fun done (state : ResolvedSpawnActors × Option Nat) => ∃ found,
    ClausesMatched builder context filled inputIndex input done found state) h ⟨[], ?_⟩ ?_
  · exact ⟨.nil, .nil, fun _ hmem => absurd hmem List.not_mem_nil, fun _ _ hget => by cases hget⟩
  · rintro done state spawn state' - ⟨found, hdone⟩ hstep
    obtain ⟨group, hgroup⟩ := hdone.snoc hphases hfilled hstep
    exact ⟨found ++ [group], hgroup⟩

/-! ## one input -/

/-- groups of different spawns share no output -/
theorem ClauseMatched.disjoint {spawn other : SpawnArtifact} {group group' : List Nat}
    (h : ClauseMatched builder context filled inputIndex input spawn group)
    (h' : ClauseMatched builder context filled inputIndex input other group')
    (hne : spawn.name ≠ other.name) : group.Disjoint group' := by
  obtain ⟨authorizingInput, -, rfl⟩ := h.group_eq
  obtain ⟨authorizingInput', -, rfl⟩ := h'.group_eq
  intro index hmem hmem'
  obtain ⟨source, hsource, hcovenant⟩ := mem_groupIndices.mp hmem
  obtain ⟨source', hsource', hcovenant'⟩ := mem_groupIndices.mp hmem'
  obtain rfl := Option.some.inj (hsource.symm.trans hsource')
  rw [hcovenant, OutputCovenant.genesis.injEq] at hcovenant'
  have hname := GenesisGroupName.path_injective hcovenant'.2
  exact hne (GenesisGroupName.spawn.inj hname)

end

/-- an output of a spawn group is authorized by an actor input that declares the spawn -/
theorem Phases.spawn_declared {context : TxContext} {bound : ResolveContext}
    {boundOutputs : List BoundOutput} {groups : GenesisGroups} {stateContext : StateContext}
    (hphases : Phases builder context bound boundOutputs groups stateContext) {index : Nat}
    {source : ContextOutput} (hsource : context.outputs[index]? = some source)
    {authorizingInput : UInt16} {spawn : String}
    (hcovenant : source.covenant = .genesis authorizingInput (GenesisGroupName.spawn spawn).path) :
    ∃ input, bound.inputs[authorizingInput.toNat]? = some (.actor input) ∧
      spawn ∈ input.artifactEntry.spawns.map (·.name) := by
  obtain ⟨boundOutput, output, -, -, hbeside, -⟩ := hphases.output_at hsource
  obtain ⟨group, hgroup⟩ := hbeside.group_ok
  obtain ⟨-, name, authorizer, hname, hauthorizer, hcheck⟩ := outputGroup_genesis hgroup hcovenant
  obtain rfl := GenesisGroupName.path_injective (GenesisGroupName.path_parse hname)
  cases authorizer with
  | ordinary input => cases hcheck
  | actor input => exact ⟨input, hauthorizer, not_not.mp (rejectIf_eq_ok.mp hcheck)⟩

theorem Phases.index_lt {context : TxContext} {bound : ResolveContext}
    {boundOutputs : List BoundOutput} {groups : GenesisGroups} {stateContext : StateContext}
    (hphases : Phases builder context bound boundOutputs groups stateContext)
    {authorizingInput : UInt16} {subgroup : String} {index : Nat}
    (hindex : index ∈ groupIndices context authorizingInput subgroup) : index < 2 ^ 32 := by
  obtain ⟨source, hsource, hcovenant⟩ := mem_groupIndices.mp hindex
  obtain ⟨output, -, hbound⟩ := hphases.outputBound hsource
  obtain ⟨_, _, hashed, -, -, hhashed, -⟩ := hbound.genesis _ _ hcovenant
  obtain ⟨word, -, hword⟩ := mem_of_forall₂_left hhashed hindex
  rw [← hword.index_eq]
  exact word.1.toNat_lt

theorem bindInput_spawns {source : ContextInput} {input : ResolveActorInput}
    (h : builder.bindInput source = .ok (.actor input)) :
    (input.artifactEntry.spawns.map (·.name)).Nodup ∧
      ∀ spawn ∈ input.artifactEntry.spawns, SpawnIndexed spawn := by
  cases source with
  | ordinary source => cases h
  | actor source =>
    obtain ⟨contractRef, hcontract, h⟩ := bind_eq_ok.mp h
    obtain ⟨actorRef, hactor, h⟩ := bind_eq_ok.mp h
    obtain ⟨artifactEntry, hentry, h⟩ := bind_eq_ok.mp h
    obtain ⟨silEntry, -, h⟩ := bind_eq_ok.mp h
    obtain rfl := ResolveInput.actor.inj (pure_eq_ok.mp h)
    obtain ⟨artifact, hartifact, hcontract⟩ := bind_eq_ok.mp hcontract
    obtain ⟨contract, -, hcontract⟩ := bind_eq_ok.mp hcontract
    obtain rfl := pure_eq_ok.mp hcontract
    obtain ⟨actor, hfound, hactor⟩ := bind_eq_ok.mp hactor
    obtain rfl := pure_eq_ok.mp hactor
    have hattached := builder.bundle.attached _ _ (okOr_eq_ok.mp hartifact)
    obtain ⟨index, hplan⟩ := checkConsistency_checked (checkConsistency_ok hattached.consistent).plan
    have hspawns := hplan.spawns_ok actor (List.mem_of_find?_eq_some (okOr_eq_ok.mp hfound))
      artifactEntry (List.mem_of_find?_eq_some (okOr_eq_ok.mp hentry))
    exact (verifyEntrySpawns_ok hspawns).1

/-! ## all inputs -/

/-- the arguments and the observations of an input are filled in -/
inductive FilledInput : ResolveInput → ResolveInput → Prop where
  | actor (input : ResolveActorInput) (args : Option ResolvedEntryArgs)
      (observations : Option ResolvedObservations) : FilledInput (.actor input)
        (.actor { input with args := args, observations := observations })
  | ordinary (input : OrdinaryInput) : FilledInput (.ordinary input) (.ordinary input)

/-- a bound context on which the steps between binding and the resolution of spawns have run -/
structure Filled (bound filled : ResolveContext) : Prop where
  outputs_eq : filled.outputs = bound.outputs
  inputs : List.Forall₂ FilledInput bound.inputs filled.inputs

/-- what the resolution of spawns establishes for an input, whose clauses have these groups -/
structure SpawnsMatched (builder : TxBuilder crates) (context : TxContext) (filled : ResolveContext)
    (inputIndex : Nat) (input : ResolveActorInput) (groups : List (List Nat)) : Prop where
  nodup : (input.artifactEntry.spawns.map (·.name)).Nodup
  indexed : ∀ spawn ∈ input.artifactEntry.spawns, SpawnIndexed spawn
  matched : List.Forall₂ (ClauseMatched builder context filled inputIndex input)
    input.artifactEntry.spawns groups
  increasing : groups.Pairwise StartsBefore
  disjoint : groups.Pairwise List.Disjoint
  claimed : ∀ (index : Nat) (source : ContextOutput) (authorizingInput : UInt16) (spawn : String),
    context.outputs[index]? = some source → authorizingInput.toNat = inputIndex →
    source.covenant = .genesis authorizingInput ("spawn::" ++ spawn) →
    ∃ group ∈ groups, index ∈ group

/-- an index witness holds the index of the output that was matched to its position -/
def NamesOutput (input : ResolveActorInput) (groups : List (List Nat)) (hidden : HiddenParamArtifact)
    (arg : ArtifactValue) : Prop :=
  hidden.purpose = .spawnOutputIndex →
    ∃ (clause position index : Nat) (spawn : SpawnArtifact) (output : SpawnOutputArtifact)
      (group : List Nat) (actor : String),
      hidden.subject = .spawnActor spawn.name output.name actor ∧
      input.artifactEntry.spawns[clause]? = some spawn ∧ groups[clause]? = some group ∧
      spawn.outputs[position]? = some output ∧ group[position]? = some index ∧ arg = .int index

section
variable {context : TxContext} {bound filled resolved : ResolveContext}
  {boundOutputs : List BoundOutput} {groups : GenesisGroups} {stateContext : StateContext}
  {inputIndex : Nat} {input : ResolveActorInput}
  (hphases : Phases builder context bound boundOutputs groups stateContext)
include hphases

theorem Phases.filled_input (hfilled : Filled bound filled)
    (hinput : filled.inputs[inputIndex]? = some (.actor input)) :
    (∃ source, bound.inputs[inputIndex]? = some (.actor source) ∧
      source.artifactEntry = input.artifactEntry) ∧
    (input.artifactEntry.spawns.map (·.name)).Nodup ∧
    ∀ spawn ∈ input.artifactEntry.spawns, SpawnIndexed spawn := by
  obtain ⟨hi, hget⟩ := List.getElem?_eq_some_iff.mp hinput
  have hi' : inputIndex < bound.inputs.length := hfilled.inputs.length_eq ▸ hi
  have hstep := hfilled.inputs.get hi' hi
  rw [List.get_eq_getElem, List.get_eq_getElem, hget] at hstep
  cases hsource : bound.inputs[inputIndex] with
  | ordinary source =>
    rw [hsource] at hstep
    cases hstep
  | actor source =>
    rw [hsource] at hstep
    obtain ⟨declared, -, hbind⟩ := mem_of_mapM_ok hphases.inputs_ok (List.getElem_mem hi')
    rw [hsource] at hbind
    have hspawns := bindInput_spawns hbind
    cases hstep
    exact ⟨⟨source, List.getElem?_eq_some_iff.mpr ⟨hi', hsource⟩, rfl⟩, hspawns⟩

theorem ClausesMatched.spawnsMatched (hfilled : Filled bound filled)
    (hinput : filled.inputs[inputIndex]? = some (.actor input)) {found : List (List Nat)}
    {state : ResolvedSpawnActors × Option Nat}
    (h : ClausesMatched builder context filled inputIndex input input.artifactEntry.spawns found
      state) : SpawnsMatched builder context filled inputIndex input found := by
  obtain ⟨⟨source, hsource, hentry⟩, hnodup, hindexed⟩ := hphases.filled_input hfilled hinput
  refine ⟨hnodup, hindexed, h.matched, h.increasing, ?_, ?_⟩
  · refine pairwise_of_forall₂ (List.Forall₂.flip h.matched) (List.pairwise_map.mp hnodup) ?_
    exact fun group group' spawn spawn' hclause hclause' hne =>
      hclause.disjoint hphases hfilled.outputs_eq hclause' hne
  · intro index output authorizingInput name houtput hindex hcovenant
    obtain ⟨authorizer, hauthorizer, hdeclared⟩ := hphases.spawn_declared houtput hcovenant
    rw [hindex, hsource] at hauthorizer
    obtain rfl := ResolveInput.actor.inj (Option.some.inj hauthorizer)
    rw [hentry] at hdeclared
    obtain ⟨spawn, hmem, rfl⟩ := List.mem_map.mp hdeclared
    obtain ⟨group, hgroup, hclause⟩ := mem_of_forall₂_left h.matched hmem
    obtain ⟨authorizingInput', hindex', rfl⟩ := hclause.group_eq
    obtain rfl := UInt16.toNat_inj.mp (hindex.trans hindex'.symm)
    exact ⟨_, hgroup, mem_groupIndices.mpr ⟨output, houtput, hcovenant⟩⟩

end

theorem resolveInputSpawns_ok {context : ResolveContext} {inputIndex : Nat}
    {input : ResolveActorInput} {result : ResolveInput}
    (h : builder.resolveInputSpawns context (.actor input, inputIndex) = .ok result) :
    ∃ spawnedActors previous,
      input.artifactEntry.spawns.foldlM (builder.resolveClause context inputIndex input) (∅, none) =
        .ok (spawnedActors, previous) ∧
      result = .actor { input with spawnedActors := some spawnedActors } := by
  obtain ⟨⟨spawnedActors, previous⟩, hfold, h⟩ := bind_eq_ok.mp h
  exact ⟨spawnedActors, previous, hfold, (pure_eq_ok.mp h).symm⟩

theorem resolveInputHiddenArgs_ok {input : ResolveActorInput} {result : ResolveInput}
    (h : builder.resolveInputHiddenArgs (.actor input) = .ok result) :
    ∃ (args : ResolvedEntryArgs) (observations : ResolvedObservations)
      (spawnedActors : ResolvedSpawnActors) (hiddenArgs : List ArtifactValue),
      input.spawnedActors = some spawnedActors ∧
      builder.resolveHiddenArgsInArtifact input.contractRef input.artifactEntry input.source.state
        args.templateSelectors ⟨some observations, some spawnedActors⟩ = .ok hiddenArgs ∧
      result = .actor { input with hiddenArgs := some hiddenArgs } := by
  obtain ⟨args, -, h⟩ := bind_eq_ok.mp h
  obtain ⟨observations, -, h⟩ := bind_eq_ok.mp h
  obtain ⟨spawnedActors, hspawned, h⟩ := bind_eq_ok.mp h
  obtain ⟨hiddenArgs, hargs, h⟩ := bind_eq_ok.mp h
  exact ⟨args, observations, spawnedActors, hiddenArgs, expect_eq_ok.mp hspawned, hargs,
    (pure_eq_ok.mp h).symm⟩

/-- an index argument is the index recorded at the position of its subject -/
theorem hiddenArg_spawnOutputIndex {contractRef : ContractRef} {entry : EntryArtifact}
    {state : BTreeMap String ArtifactValue} {selectors : BTreeMap String String}
    {contexts : HiddenArgContexts} {hidden : HiddenParamArtifact} {arg : ArtifactValue}
    (hpurpose : hidden.purpose = .spawnOutputIndex)
    (h : builder.hiddenArg contractRef entry state selectors contexts hidden = .ok arg) :
    ∃ spawn handle actor spawned, hidden.subject = .spawnActor spawn handle actor ∧
      contexts.spawnedAt spawn handle = some spawned ∧ arg = .int (asI64 spawned.outputIndex) := by
  unfold hiddenArg at h
  rw [hpurpose] at h
  dsimp only at h
  unfold spawnOutputIndexArg at h
  split at h
  next spawn handle actor hsubject =>
    obtain ⟨spawned, hspawned, h⟩ := bind_eq_ok.mp h
    exact ⟨spawn, handle, actor, spawned, hsubject, okOr_eq_ok.mp hspawned, (pure_eq_ok.mp h).symm⟩
  next => cases h

section
variable {context : TxContext} {bound filled : ResolveContext} {boundOutputs : List BoundOutput}
  {groups : GenesisGroups} {stateContext : StateContext} {inputIndex : Nat}
  {input : ResolveActorInput}

theorem ClausesMatched.namesOutput
    (hphases : Phases builder context bound boundOutputs groups stateContext)
    {found : List (List Nat)} {spawnedActors : ResolvedSpawnActors} {previous : Option Nat}
    (h : ClausesMatched builder context filled inputIndex input input.artifactEntry.spawns found
      (spawnedActors, previous)) {contractRef : ContractRef}
    {state : BTreeMap String ArtifactValue} {selectors : BTreeMap String String}
    {observed : Option ResolvedObservations} {hidden : HiddenParamArtifact} {arg : ArtifactValue}
    (harg : builder.hiddenArg contractRef input.artifactEntry state selectors
      ⟨observed, some spawnedActors⟩ hidden = .ok arg) :
    NamesOutput input found hidden arg := by
  intro hpurpose
  obtain ⟨_, _, actor, spawned, hsubject, hspawned, rfl⟩ := hiddenArg_spawnOutputIndex hpurpose harg
  obtain ⟨clause, spawn, group, hspawn, hgroup, position, output, houtput, hindex, hkey⟩ :=
    h.spawned _ spawned hspawned
  obtain ⟨rfl, rfl⟩ := Prod.mk.inj (toLex.injective hkey)
  refine ⟨clause, position, spawned.outputIndex, spawn, output, group, actor, hsubject, hspawn,
    hgroup, houtput, hindex, ?_⟩
  obtain ⟨spawn', -, hclause⟩ := mem_of_forall₂_left (List.Forall₂.flip h.matched)
    (List.mem_of_getElem? hgroup)
  obtain ⟨authorizingInput, -, rfl⟩ := hclause.group_eq
  have hlt := hphases.index_lt (List.mem_of_getElem? hindex)
  rw [asI64_of_lt (by omega)]

end

/-- For a context that is bound and filled and whose spawns are resolved, every clause of an actor
input is matched to the one group of its name that the input authorizes: the outputs of the group
are as many as those of the clause, and position by position an actor of the declared template or
handle.  The groups start in clause order, share no output and take up all spawn groups of the
input.  Each index witness that is then passed is the index of the output matched to its position. -/
theorem resolveContextSpawns_matched (crates : RuntimeCrates) (builder : TxBuilder crates)
    (context : TxContext) (bound filled resolved : ResolveContext)
    (hbind : builder.bindContext context = .ok bound) (hfilled : Filled bound filled)
    (hspawns : builder.resolveContextSpawns filled = .ok resolved) (inputIndex : Nat)
    (input : ResolveActorInput) (hinput : filled.inputs[inputIndex]? = some (.actor input)) :
    ∃ groups, SpawnsMatched builder context filled inputIndex input groups ∧
      ∀ final, builder.resolveContextHiddenArgs resolved = .ok final →
        ∃ (result : ResolveActorInput) (hiddenArgs : List ArtifactValue),
          final.inputs[inputIndex]? = some (.actor result) ∧ result.hiddenArgs = some hiddenArgs ∧
            List.Forall₂ (NamesOutput input groups) input.artifactEntry.hiddenParams
              hiddenArgs := by
  obtain ⟨boundOutputs, genesisGroups, stateContext, hphases⟩ := bindContext_phases hbind
  obtain ⟨inputs, hinputs, hresolved⟩ := bind_eq_ok.mp hspawns
  obtain rfl := pure_eq_ok.mp hresolved
  have hat : filled.inputs.zipIdx[inputIndex]? = some (.actor input, inputIndex) := by
    rw [List.getElem?_zipIdx, hinput, Option.map_some, Nat.zero_add]
  obtain ⟨_, hget, hinputSpawns⟩ := getElem?_of_mapM_ok hinputs hat
  obtain ⟨spawnedActors, previous, hfold, rfl⟩ := resolveInputSpawns_ok hinputSpawns
  obtain ⟨groups, hclauses⟩ := resolveClauses_ok hphases hfilled.outputs_eq hfold
  refine ⟨groups, hclauses.spawnsMatched hphases hfilled hinput, fun final hfinal => ?_⟩
  obtain ⟨finals, hfinals, hfinal⟩ := bind_eq_ok.mp hfinal
  obtain rfl := pure_eq_ok.mp hfinal
  obtain ⟨_, hget, hinputHidden⟩ := getElem?_of_mapM_ok hfinals hget
  obtain ⟨args, observations, _, hiddenArgs, hspawned, hargs, rfl⟩ :=
    resolveInputHiddenArgs_ok hinputHidden
  obtain rfl := Option.some.inj hspawned
  refine ⟨_, hiddenArgs, hget, rfl, forall₂_of_mapM hargs fun hidden _ arg harg => ?_⟩
  exact hclauses.namesOutput hphases harg

/-! ## a sample -/

/-- the kind of the brood is the handle of a queen -/
def fillKind : ResolveInput → ResolveInput
  | .actor input => .actor { input with
      args := some ⟨[.bytes queenHandleHash.bytes], ∅⟩
      observations := some ∅ }
  | .ordinary input => .ordinary input

def broodFilled : ResolveContext := { broodBound with inputs := broodBound.inputs.map fillKind }

theorem broodFilled_filled : Filled broodBound broodFilled := by
  refine ⟨rfl, List.forall₂_map_right_iff.mpr (List.forall₂_same.mpr fun input _ => ?_)⟩
  cases input with
  | actor input => exact .actor input _ _
  | ordinary input => exact .ordinary input

def broodResolved : ResolveContext :=
  (hiveBuilder.resolveContextSpawns broodFilled).toOption.get (by decide +kernel)

theorem resolveContextSpawns_matched_sample :
    ∃ input groups, broodFilled.inputs[0]? = some (.actor input) ∧
      SpawnsMatched hiveBuilder broodContext broodFilled 0 input groups := by
  obtain ⟨input, hinput⟩ : ∃ input, broodFilled.inputs[0]? = some (.actor input) := ⟨_, rfl⟩
  obtain ⟨groups, hgroups, -⟩ := resolveContextSpawns_matched hiveRuntimeCrates hiveBuilder
    broodContext broodBound broodFilled broodResolved broodBound_eq broodFilled_filled
    (eq_ok_get _) 0 input hinput
  exact ⟨input, groups, hinput, hgroups⟩

end TxBuilder

end Argent.Runtime
