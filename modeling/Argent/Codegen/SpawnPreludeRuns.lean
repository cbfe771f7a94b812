import Argent.Codegen.HiddenParams
import Argent.Codegen.InputCounts
import Argent.Codegen.SpawnPreludeSound
import Argent.Runtime.BuildPanics
import Argent.Runtime.SpawnsSound

/-!
# Built transactions pass their spawn checks

What the builder makes of a context against what the compiler writes into the entries that it calls.

* `SpawnsEmitted`            the entry of an artifact beside the entry that it is written for;
* `Seen`                     a transaction as scripts see it;
* `Prepared`                 the passes of the builder before it signs;
* `lookup_spawnOutput`       a hidden argument is the index of the output that its clause names;
* `described_of_matched`     a matched group is the one that its clause describes;
* `preparedSpawns_pass`      **the spawn checks of every entry pass on every transaction that the builder
                             prepares, and each clause finds the id that the builder gave its group**.
-/

set_option linter.unusedSectionVars false

namespace Argent.Codegen
open Argent.Model Argent.Sil Argent.Genesis Argent.Fallible Straightline
open Argent.Artifacts (ActorTargetArtifact ArtifactValue EntryArtifact HiddenParamArtifact
  SpawnArtifact SpawnIndexed SpawnOutputArtifact)

/-! ## the artifact's side -/

/-- what the artifact says of the actor of a spawn output -/
structure SpawnTargetArtifact where
  actor : String
  state : String
  target : Option ActorTargetArtifact

def spawnOutputArtifact (targets : EntryInteraction → SpawnTargetArtifact)
    (item : EntryInteraction × Nat) : SpawnOutputArtifact :=
  ⟨item.1.handle, (targets item.1).actor, (targets item.1).state, item.2, cardinalityArtifact item.1,
    (targets item.1).target⟩

def spawnArtifact (targets : EntryInteraction → SpawnTargetArtifact)
    (clause : SpawnDecl × CovenantGroup) : SpawnArtifact :=
  ⟨clause.1.name, clause.1.covenant, clause.2.outputs.items.zipIdx.map (spawnOutputArtifact targets)⟩

/-- the artifact describes the entry, as far as its spawns go -/
structure SpawnsEmitted (planned : PlannedEntry) (artifact : EntryArtifact) : Prop where
  spawnOutputs : ∃ bindings,
    entrySpawnOutputs bindings planned.entry = .ok planned.witnesses.spawnOutputs
  hiddenParams : artifact.hiddenParams = planned.hiddenParams
  spawns : ∃ targets, artifact.spawns = planned.entry.genesisGroups.map (spawnArtifact targets)

/-! ## the script's side -/

def seenOutput (output : Runtime.TransactionOutput) : TransactionOutput where
  value := output.value
  version := output.scriptPublicKey.version
  script := output.scriptPublicKey.script
  covenant := output.covenant.map fun binding =>
    ⟨binding.authorizingInput.toNat, binding.covenantId.bytes⟩

def seenOutpoint (outpoint : Runtime.TransactionOutpoint) : Outpoint :=
  ⟨outpoint.transactionId.bytes, outpoint.index⟩

/-- scripts see the outpoints of the inputs, and the outputs -/
structure Seen (unsigned : Runtime.MutableTransaction) (tx : Transaction) : Prop where
  inputs : tx.inputs.map (·.outpoint) =
    unsigned.tx.inputs.map fun input => seenOutpoint input.previousOutpoint
  outputs : tx.outputs = unsigned.tx.outputs.map seenOutput

/-- hidden parameters have the arguments of a signature script as their values -/
def ArgsPassed (env : Sil.Env) (params : List HiddenParamArtifact) (args : List ArtifactValue) : Prop :=
  List.Forall₂ (fun param arg => ∀ n, arg = .int n → env.lookup param.name = some (.int n)) params args

/-- ids and script hashes of the chain -/
structure Commits (crates : Runtime.RuntimeCrates) (hash : Bytes → Bytes) : Prop where
  covenantId : ∀ outpoint outputs, outputs.length < 256 ^ 8 → (∀ output ∈ outputs, Unbound output) →
    (crates.covenantId outpoint outputs).bytes = hash (covenantIdPreimage outpoint outputs)
  scriptHash : ∀ script, (crates.payToScriptHash script).version = 0 ∧
    (crates.payToScriptHash script).script.length = P2SH_SCRIPT_LEN

/-! ## the passes -/

section
variable {crates : Runtime.TransactionCrates} (builder : Runtime.TxBuilder crates.toRuntimeCrates)

/-- the passes of the builder before it signs -/
structure Prepared (context : Runtime.TxContext) (unsigned : Runtime.MutableTransaction)
    (bound final : Runtime.ResolveContext) : Prop where
  bind : builder.bindContext context = .ok bound
  transaction : Runtime.TxBuilder.unsignedTransaction crates.toRuntimeCrates bound = .ok unsigned
  passes : ∃ withArgs withObservations withSpawns,
    Runtime.resolveContextArgs bound unsigned = .ok withArgs ∧
    builder.resolveContextObservations withArgs unsigned = .ok withObservations ∧
    builder.resolveContextSpawns withObservations = .ok withSpawns ∧
    builder.resolveContextHiddenArgs withSpawns = .ok final

variable {builder}

/-- the clauses of an input, the groups that they were matched to, and the arguments that name the
outputs of these groups -/
structure InputMatched (builder : Runtime.TxBuilder crates.toRuntimeCrates) (context : Runtime.TxContext)
    (bound : Runtime.ResolveContext) (index : Nat) (input : Runtime.ResolveActorInput)
    (groups : List (List Nat)) (hiddenArgs : List ArtifactValue) : Prop where
  nodup : (input.artifactEntry.spawns.map (·.name)).Nodup
  indexed : ∀ spawn ∈ input.artifactEntry.spawns, SpawnIndexed spawn
  matched : List.Forall₂ (Runtime.TxBuilder.ClauseMatched builder context bound index input)
    input.artifactEntry.spawns groups
  increasing : groups.Pairwise Runtime.TxBuilder.StartsBefore
  named : List.Forall₂ (Runtime.TxBuilder.NamesOutput input groups) input.artifactEntry.hiddenParams
    hiddenArgs

theorem InputMatched.matched_at {builder : Runtime.TxBuilder crates.toRuntimeCrates}
    {context : Runtime.TxContext} {bound : Runtime.ResolveContext} {index : Nat}
    {input : Runtime.ResolveActorInput} {groups : List (List Nat)} {hiddenArgs : List ArtifactValue}
    (h : InputMatched builder context bound index input groups hiddenArgs) {c : Nat}
    {spawn : SpawnArtifact} (hspawn : input.artifactEntry.spawns[c]? = some spawn) {group : List Nat}
    (hgroup : groups[c]? = some group) :
    Runtime.TxBuilder.ClauseMatched builder context bound index input spawn group := by
  obtain ⟨hc, rfl⟩ := List.getElem?_eq_some_iff.mp hspawn
  obtain ⟨hc', rfl⟩ := List.getElem?_eq_some_iff.mp hgroup
  exact h.matched.get hc hc'

/-- every actor input of a prepared transaction is matched -/
theorem exists_inputMatched {context : Runtime.TxContext} {unsigned : Runtime.MutableTransaction}
    {bound final : Runtime.ResolveContext} (h : Prepared builder context unsigned bound final)
    {index : Nat} {input : Runtime.ResolveActorInput}
    (hinput : final.inputs[index]? = some (.actor input)) :
    ∃ (matched : Runtime.ResolveActorInput) (groups : List (List Nat)) (hiddenArgs : List ArtifactValue),
      InputMatched builder context bound index matched groups hiddenArgs ∧
        input.artifactEntry = matched.artifactEntry ∧ input.hiddenArgs = some hiddenArgs := by
  obtain ⟨withArgs, withObservations, withSpawns, hargs, hobserve, hspawns, hhidden⟩ := h.passes
  obtain ⟨boundOutputs, genesisGroups, stateContext, hphases⟩ :=
    Runtime.TxBuilder.bindContext_phases h.bind
  obtain ⟨hunfilled, hresolved⟩ :=
    Runtime.passes_ok (Runtime.bindContext_unfilled h.bind) hargs hobserve hspawns hhidden
  have hkept := Runtime.ResolveContext.input_unfilled final index
  rw [hunfilled, hinput] at hkept
  obtain ⟨source, hsource⟩ : ∃ source, bound.inputs[index]? = some (.actor source) := ⟨_, hkept⟩
  obtain ⟨last, hlast, hpassed⟩ := hresolved index _ hsource
  obtain ⟨args, observations, spawnedActors, hiddenArgs, hdone, rfl⟩ := hpassed.actor _ rfl
  obtain rfl := Runtime.ResolveInput.actor.inj (Option.some.inj (hinput.symm.trans hlast))
  obtain ⟨observed, spawned, previous, -, -, hfold, hhiddenArgs⟩ := hdone.hidden
  obtain ⟨groups, hclauses⟩ := Runtime.TxBuilder.resolveClauses_ok hphases rfl hfold
  obtain ⟨declared, -, hbindInput⟩ := mem_of_mapM_ok hphases.inputs_ok (List.mem_of_getElem? hsource)
  obtain ⟨hnodup, hindexed⟩ := Runtime.TxBuilder.bindInput_spawns hbindInput
  refine ⟨{ source with args := some args }, groups, hiddenArgs,
    ⟨hnodup, hindexed, hclauses.matched, hclauses.increasing, ?_⟩, rfl, rfl⟩
  refine forall₂_of_mapM hhiddenArgs fun hidden _ arg harg => ?_
  exact hclauses.namesOutput hphases harg

/-! ## the arguments of a clause -/

theorem witnessRoleName_spawnIndex (spec : SpawnActorWitnessSpec) :
    witnessRoleName (.spawnIndex spec) = hiddenSpawnOutputIdxName spec.spawn spec.handle := by
  show RESERVED_GENERATED_PREFIX ++ (spec.spawn ++ "_" ++ spec.handle) ++ "_output_idx" =
    RESERVED_GENERATED_PREFIX ++ spec.spawn ++ "_" ++ spec.handle ++ "_output_idx"
  rw [String.append_assoc, String.append_assoc, String.append_assoc, String.append_assoc,
    String.append_assoc, String.append_assoc]

theorem exists_hiddenParam {planned : PlannedEntry} {artifact : EntryArtifact}
    (h : SpawnsEmitted planned artifact) {clause : SpawnDecl × CovenantGroup}
    (hclause : clause ∈ planned.entry.genesisGroups) {output : EntryInteraction}
    (houtput : output ∈ clause.2.outputs.items) :
    ∃ param ∈ artifact.hiddenParams, param.purpose = .spawnOutputIndex ∧
      param.name = hiddenSpawnOutputIdxName clause.1.name output.handle ∧
      ∃ actor, param.subject = .spawnActor clause.1.name output.handle actor := by
  obtain ⟨bindings, hspecs⟩ := h.spawnOutputs
  have hsite : (clause.1.name, output) ∈ planned.entry.genesisGroups.flatMap fun group =>
      group.2.outputs.items.map fun output => (group.1.name, output) :=
    List.mem_flatMap.mpr ⟨clause, hclause, List.mem_map_of_mem houtput⟩
  obtain ⟨spec, hspec, hspawn⟩ := mapM_ok_of_mem hspecs hsite
  obtain ⟨actor, -, hspawn⟩ := bind_eq_ok.mp hspawn
  have hsame := pure_eq_ok.mp hspawn
  have hrole : WitnessRole.spawnIndex spec ∈ planned.roles := by
    unfold PlannedEntry.roles EntryWitnesses.roles
    exact List.mem_append_left _ (List.mem_append_left _ (List.mem_append_left _
      (List.mem_append_right _ (List.mem_map_of_mem hspec))))
  have hname : spec.spawn = clause.1.name := by rw [← hsame]
  have hhandle : spec.handle = output.handle := by rw [← hsame]
  rw [← hname, ← hhandle, h.hiddenParams]
  exact ⟨_, List.mem_map_of_mem hrole, rfl, witnessRoleName_spawnIndex spec, spec.actor, rfl⟩

/-- an argument that names an output of a clause is the index at its position -/
theorem namesOutput_index {input : Runtime.ResolveActorInput} {groups : List (List Nat)}
    (hnodup : (input.artifactEntry.spawns.map (·.name)).Nodup)
    (hindexed : ∀ spawn ∈ input.artifactEntry.spawns, SpawnIndexed spawn)
    {hidden : HiddenParamArtifact} {arg : ArtifactValue}
    (h : Runtime.TxBuilder.NamesOutput input groups hidden arg)
    (hpurpose : hidden.purpose = .spawnOutputIndex) {name handle actor : String}
    (hsubject : hidden.subject = .spawnActor name handle actor) {c p index : Nat}
    {spawn : SpawnArtifact} {output : SpawnOutputArtifact} {group : List Nat}
    (hspawn : input.artifactEntry.spawns[c]? = some spawn) (hname : spawn.name = name)
    (hgroup : groups[c]? = some group) (houtput : spawn.outputs[p]? = some output)
    (hhandle : output.name = handle) (hindex : group[p]? = some index) : arg = .int index := by
  obtain ⟨c', p', index', spawn', output', group', actor', hsame, hspawn', hgroup', houtput', hindex',
    rfl⟩ := h hpurpose
  rw [hsubject] at hsame
  obtain ⟨hname', hhandle', -⟩ := Artifacts.HiddenParamSubjectArtifact.spawnActor.inj hsame
  have hc : c = c' := by
    refine (List.getElem?_inj ?_ hnodup).mp ?_
    · rw [List.length_map]
      exact (List.getElem?_eq_some_iff.mp hspawn).1
    · rw [List.getElem?_map, List.getElem?_map, hspawn, hspawn', Option.map_some, Option.map_some,
        hname, hname']
  subst hc
  obtain rfl := Option.some_inj.mp (hspawn.symm.trans hspawn')
  obtain rfl := Option.some_inj.mp (hgroup.symm.trans hgroup')
  have hp : p = p' := by
    refine (List.getElem?_inj ?_ (hindexed spawn (List.mem_of_getElem? hspawn)).nodup).mp ?_
    · rw [List.length_map]
      exact (List.getElem?_eq_some_iff.mp houtput).1
    · rw [List.getElem?_map, List.getElem?_map, houtput, houtput', Option.map_some, Option.map_some,
        hhandle, hhandle']
  subst hp
  rw [Option.some_inj.mp (hindex.symm.trans hindex')]

theorem lookup_spawnOutput {builder : Runtime.TxBuilder crates.toRuntimeCrates}
    {context : Runtime.TxContext} {bound : Runtime.ResolveContext} {position : Nat}
    {input : Runtime.ResolveActorInput} {groups : List (List Nat)} {hiddenArgs : List ArtifactValue}
    (hmatched : InputMatched builder context bound position input groups hiddenArgs)
    {planned : PlannedEntry} (hemitted : SpawnsEmitted planned input.artifactEntry) {env : Sil.Env}
    (hpassed : ArgsPassed env input.artifactEntry.hiddenParams hiddenArgs) {c : Nat}
    {clause : SpawnDecl × CovenantGroup} (hclause : planned.entry.genesisGroups[c]? = some clause)
    {group : List Nat} (hgroup : groups[c]? = some group) :
    List.Forall₂ (fun output (index : Nat) => env.lookup (hiddenSpawnOutputIdxName clause.1.name
      output.handle) = some (.int index)) clause.2.outputs.items group := by
  obtain ⟨targets, hspawns⟩ := hemitted.spawns
  have hspawn : input.artifactEntry.spawns[c]? = some (spawnArtifact targets clause) := by
    rw [hspawns, List.getElem?_map, hclause, Option.map_some]
  have hpositions := (hmatched.matched_at hspawn hgroup).positions
  have hlength : clause.2.outputs.items.length = group.length := by
    rw [← hpositions.length_eq]
    show _ = (clause.2.outputs.items.zipIdx.map (spawnOutputArtifact targets)).length
    rw [List.length_map, List.length_zipIdx]
  refine List.forall₂_iff_get.mpr ⟨hlength, fun p hp hp' => ?_⟩
  rw [List.get_eq_getElem, List.get_eq_getElem]
  obtain ⟨param, hparam, hpurpose, hname, actor, hsubject⟩ := exists_hiddenParam hemitted
    (List.mem_of_getElem? hclause) (List.getElem_mem hp)
  obtain ⟨arg, -, hnames, hvalue⟩ := mem_of_forall₂_left
    (List.Forall₂.mp (fun _ _ h h' => And.intro h h') hmatched.named hpassed) hparam
  have houtput : (spawnArtifact targets clause).outputs[p]? =
      some (spawnOutputArtifact targets (clause.2.outputs.items[p], p)) := by
    show (clause.2.outputs.items.zipIdx.map (spawnOutputArtifact targets))[p]? = _
    rw [List.getElem?_map, List.getElem?_zipIdx, List.getElem?_eq_getElem hp, Option.map_some,
      Option.map_some, Nat.zero_add]
  rw [← hname]
  exact hvalue _ (namesOutput_index hmatched.nodup hmatched.indexed hnames hpurpose hsubject hspawn
    rfl hgroup houtput rfl (List.getElem?_eq_getElem hp'))

/-! ## the group of a clause -/

theorem Described.unique {ctx : SpawnContext} {outpoint : Outpoint} {witnessed : List Int}
    {items items' : List (UInt32 × Runtime.TransactionOutput)} {id id' : Bytes}
    (h : Described ctx outpoint witnessed items id) (h' : Described ctx outpoint witnessed items' id') :
    id = id' := by
  have hread : Relator.RightUnique fun (index : Int) item => readItem ctx.tx index = some item := by
    intro index item item' hitem hitem'
    exact Option.some_inj.mp (hitem.symm.trans hitem')
  rw [← h.hash, ← h'.hash, hread.forall₂ h.read h'.read]

/-- an output of a group is read as it was hashed -/
theorem readItem_of_hashed {unsigned : Runtime.MutableTransaction} {tx : Transaction}
    (hseen : Seen unsigned tx) {index : Nat}
    {item : UInt32 × Runtime.TransactionOutput} (h : Runtime.GroupOutput unsigned.tx index item)
    (hscript : ∀ final, unsigned.tx.outputs[index]? = some final → final.scriptPublicKey.version = 0 ∧
      final.scriptPublicKey.script.length = P2SH_SCRIPT_LEN) :
    readItem tx index = some item ∧ Unbound item := by
  obtain ⟨hindex, final, hfinal, hitem⟩ := h
  obtain ⟨hversion, hlength⟩ := hscript final hfinal
  have hseenAt : tx.outputs[index]? = some (seenOutput final) := by
    rw [hseen.outputs, List.getElem?_map, hfinal, Option.map_some]
  obtain ⟨word, output⟩ := item
  obtain rfl : output = { final with covenant := none } := hitem
  refine ⟨readItem_eq_some.mpr ⟨index, _, rfl, hseenAt, hlength.ge, ?_⟩, rfl, ?_⟩
  · have hword : word = UInt32.ofNat index := by
      rw [← hindex, UInt32.ofNat_toNat]
    have htake : (seenOutput final).script.take P2SH_SCRIPT_LEN = final.scriptPublicKey.script :=
      List.take_of_length_le hlength.le
    obtain ⟨value, ⟨version, script⟩, covenant⟩ := final
    obtain rfl : version = 0 := hversion
    rw [hword, htake]
    rfl
  · show final.scriptPublicKey.script.length < 256 ^ 8
    rw [hlength]
    decide

section
variable {builder : Runtime.TxBuilder crates.toRuntimeCrates} {context : Runtime.TxContext}
  {unsigned : Runtime.MutableTransaction} {bound : Runtime.ResolveContext}
  {boundOutputs : List Runtime.BoundOutput} {genesisGroups : Runtime.GenesisGroups}
  {stateContext : Runtime.StateContext}
  (hphases : Runtime.TxBuilder.Phases builder context bound boundOutputs genesisGroups stateContext)
  (hunsigned : Runtime.TxBuilder.unsignedTransaction crates.toRuntimeCrates bound = .ok unsigned)
include hphases hunsigned

/-- the outputs of a group are hashed to one id, which all of them carry -/
theorem exists_groupId {authorizingInput : UInt16} {subgroup : String}
    (hne : Runtime.groupIndices context authorizingInput subgroup ≠ []) :
    ∃ authorizer hashed, context.inputs[authorizingInput.toNat]? = some authorizer ∧
      List.Forall₂ (Runtime.GroupOutput unsigned.tx)
        (Runtime.groupIndices context authorizingInput subgroup) hashed ∧
      ∀ index ∈ Runtime.groupIndices context authorizingInput subgroup, ∃ output,
        unsigned.tx.outputs[index]? = some output ∧ output.covenant =
          some ⟨authorizingInput, crates.covenantId authorizer.outpoint hashed⟩ := by
  obtain ⟨start, hstart⟩ := List.exists_mem_of_ne_nil _ hne
  obtain ⟨source, hsource, hcovenant⟩ := Runtime.mem_groupIndices.mp hstart
  obtain ⟨output, -, hbuilt⟩ := Runtime.outputBuilt hphases hunsigned rfl hsource
  obtain ⟨authorizer, hashed, hauthorizer, hgroup, -, hid⟩ := hbuilt.genesis _ _ hcovenant
  refine ⟨authorizer, hashed, hauthorizer, hgroup, fun index hindex => ?_⟩
  obtain ⟨other, hother, hdeclared⟩ := Runtime.mem_groupIndices.mp hindex
  obtain ⟨found, hfound, hother⟩ := Runtime.outputBuilt hphases hunsigned rfl hother
  obtain ⟨_, _, -, -, hcarried, hsame⟩ := hother.genesis _ _ hdeclared
  rw [hid] at hsame
  exact ⟨found, hfound, by rw [hcarried, Option.some_inj.mp hsame]⟩

/-- the outputs of a clause pay to the hashes of scripts -/
theorem scriptHash_of_matched {hash : Bytes → Bytes} (hcommits : Commits crates.toRuntimeCrates hash)
    {input : Runtime.ResolveActorInput} {output : SpawnOutputArtifact} {index : Nat}
    (h : Runtime.TxBuilder.PositionMatched builder bound input output index)
    {final : Runtime.TransactionOutput} (hfinal : unsigned.tx.outputs[index]? = some final) :
    final.scriptPublicKey.version = 0 ∧ final.scriptPublicKey.script.length = P2SH_SCRIPT_LEN := by
  obtain ⟨resolved, actor, hresolved, howner, -⟩ := h
  obtain ⟨found, hfound, hout⟩ := Runtime.TxBuilder.unsignedTransaction_output hunsigned hresolved
  obtain rfl := Option.some_inj.mp (hfinal.symm.trans hfound)
  obtain ⟨script, hscript, hout⟩ := bind_eq_ok.mp hout
  obtain rfl := pure_eq_ok.mp hout
  rw [howner] at hscript
  obtain ⟨redeem, -, hscript⟩ := bind_eq_ok.mp hscript
  obtain rfl := pure_eq_ok.mp hscript
  exact hcommits.scriptHash redeem

/-- the group of a clause is the one that its statements describe -/
theorem described_of_matched (hframe : Runtime.Unsigned context unsigned) {ctx : SpawnContext}
    (hseen : Seen unsigned ctx.tx) (hlimits : Limits ctx.tx)
    (hcommits : Commits crates.toRuntimeCrates ctx.covenantHash) {active : TransactionInput}
    (hactive : ctx.tx.inputs[ctx.active]? = some active) {input : Runtime.ResolveActorInput}
    {spawn : SpawnArtifact} {group : List Nat}
    (h : Runtime.TxBuilder.ClauseMatched builder context bound ctx.active input spawn group)
    (hne : group ≠ []) :
    ∃ items authorizingInput id, authorizingInput.toNat = ctx.active ∧
      group = Runtime.groupIndices context authorizingInput ("spawn::" ++ spawn.name) ∧
      Described ctx active.outpoint (group.map fun (index : Nat) => (index : Int)) items id.bytes ∧
      ∀ index ∈ group, ∃ output, unsigned.tx.outputs[index]? = some output ∧
        output.covenant = some ⟨authorizingInput, id⟩ := by
  obtain ⟨authorizingInput, hauthorizing, hgroup⟩ := h.group_eq
  have hpositions := h.positions
  rw [hgroup] at hne
  obtain ⟨authorizer, hashed, hauthorizer, hhashed, hcarried⟩ := exists_groupId hphases hunsigned hne
  rw [← hgroup] at hhashed hcarried
  have hread : List.Forall₂ (fun (index : Nat) item =>
      readItem ctx.tx (index : Int) = some item ∧ Unbound item) group hashed := by
    refine ((List.forall₂_and_left _ _).mpr ⟨fun _ hindex => hindex, hhashed⟩).imp ?_
    rintro index item ⟨hindex, hitem⟩
    refine readItem_of_hashed hseen hitem fun final hfinal => ?_
    obtain ⟨output, -, hposition⟩ := mem_of_forall₂_left hpositions.flip hindex
    exact scriptHash_of_matched hphases hunsigned hcommits hposition hfinal
  have hlength : group.length ≤ 2 ^ 32 := by
    have hle : group.length ≤ context.outputs.length := by
      rw [hgroup]
      unfold Runtime.groupIndices
      rw [List.length_map]
      refine (List.length_filter_le _ _).trans ?_
      rw [List.length_zipIdx]
    have hsame : ctx.tx.outputs.length = context.outputs.length := by
      rw [hseen.outputs, List.length_map, hframe.length_outputs]
    have hfew := hlimits.few
    omega
  have houtpoint : active.outpoint = seenOutpoint authorizer.outpoint := by
    have hat := congrArg (fun outpoints : List Outpoint => outpoints[ctx.active]?) hseen.inputs
    rw [hframe.inputs_eq, List.getElem?_map, hactive, List.map_map, List.getElem?_map, ← hauthorizing,
      hauthorizer, Option.map_some, Option.map_some] at hat
    exact Option.some_inj.mp hat
  refine ⟨hashed, authorizingInput, crates.covenantId authorizer.outpoint hashed, hauthorizing, hgroup,
    ⟨?_, ?_, ?_, ?_⟩, hcarried⟩
  · rw [List.length_map]
    omega
  · exact List.forall₂_map_left_iff.mpr (hread.imp fun _ _ hitem => hitem.1)
  · rw [houtpoint, hcommits.covenantId authorizer.outpoint hashed]
    · exact congrArg ctx.covenantHash genesisPreimage_eq
    · rw [← hhashed.length_eq]
      omega
    · intro item hitem
      obtain ⟨index, -, -, hunbound⟩ := mem_of_forall₂_left hread.flip hitem
      exact hunbound
  · intro first hfirst
    rw [List.head?_map] at hfirst
    obtain ⟨index, hindex, rfl⟩ := Option.map_eq_some_iff.mp hfirst
    obtain ⟨output, houtput, hcovenant⟩ := hcarried index (List.mem_of_mem_head? hindex)
    refine ⟨seenOutput output, ⟨authorizingInput.toNat, _⟩, nth_eq_some.mpr ⟨index, rfl, ?_⟩, ?_, rfl⟩
    · rw [hseen.outputs, List.getElem?_map, houtput, Option.map_some]
    · show output.covenant.map _ = _
      rw [hcovenant]
      rfl

end

/-! ## all clauses -/

/-- the index that the caller of an entry names for an output -/
def witnessedIndex (env : Sil.Env) (spawn : SpawnDecl) (output : EntryInteraction) : Int :=
  match env.lookup (hiddenSpawnOutputIdxName spawn.name output.handle) with
  | some (.int index) => index
  | _ => 0

theorem witnessedIndex_eq {env : Sil.Env} {spawn : SpawnDecl} {output : EntryInteraction} {index : Int}
    (h : env.lookup (hiddenSpawnOutputIdxName spawn.name output.handle) = some (.int index)) :
    witnessedIndex env spawn output = index := by
  unfold witnessedIndex
  rw [h]

theorem indices_eq {env : Sil.Env} {clause : SpawnDecl × CovenantGroup} {group : List Nat}
    (h : List.Forall₂ (fun output (index : Nat) => env.lookup (hiddenSpawnOutputIdxName clause.1.name
      output.handle) = some (.int index)) clause.2.outputs.items group) :
    indices (witnessedIndex env) clause = group.map fun (index : Nat) => (index : Int) := by
  unfold indices
  generalize clause.2.outputs.items = items at h ⊢
  induction h with
  | nil => rfl
  | cons hindex _ ih => rw [List.map_cons, List.map_cons, ih, witnessedIndex_eq hindex]

theorem firstIndex_eq {env : Sil.Env} {clause : SpawnDecl × CovenantGroup} :
    firstIndex (witnessedIndex env) clause = (indices (witnessedIndex env) clause).head? :=
  List.head?_map.symm

/-- a clause beside the group that it was matched to -/
structure ClausePassed (builder : Runtime.TxBuilder crates.toRuntimeCrates) (context : Runtime.TxContext)
    (bound : Runtime.ResolveContext) (position : Nat) (input : Runtime.ResolveActorInput) (env : Sil.Env)
    (clause : SpawnDecl × CovenantGroup) (group : List Nat) : Prop where
  lookup : List.Forall₂ (fun output (index : Nat) => env.lookup (hiddenSpawnOutputIdxName clause.1.name
    output.handle) = some (.int index)) clause.2.outputs.items group
  matched : ∃ spawn, spawn.name = clause.1.name ∧
    Runtime.TxBuilder.ClauseMatched builder context bound position input spawn group

theorem forall₂_clausePassed {builder : Runtime.TxBuilder crates.toRuntimeCrates}
    {context : Runtime.TxContext} {bound : Runtime.ResolveContext} {position : Nat}
    {input : Runtime.ResolveActorInput} {groups : List (List Nat)} {hiddenArgs : List ArtifactValue}
    (hmatched : InputMatched builder context bound position input groups hiddenArgs)
    {planned : PlannedEntry} (hemitted : SpawnsEmitted planned input.artifactEntry) {env : Sil.Env}
    (hpassed : ArgsPassed env input.artifactEntry.hiddenParams hiddenArgs) :
    List.Forall₂ (ClausePassed builder context bound position input env) planned.entry.genesisGroups
      groups := by
  obtain ⟨targets, hspawns⟩ := hemitted.spawns
  have hlength : planned.entry.genesisGroups.length = groups.length := by
    rw [← hmatched.matched.length_eq, hspawns, List.length_map]
  refine List.forall₂_iff_get.mpr ⟨hlength, fun c hc hc' => ?_⟩
  have hclause := List.getElem?_eq_getElem hc
  have hgroup := List.getElem?_eq_getElem hc'
  refine ⟨lookup_spawnOutput hmatched hemitted hpassed hclause hgroup, spawnArtifact targets _, rfl,
    hmatched.matched_at ?_ hgroup⟩
  rw [hspawns, List.getElem?_map, hclause, Option.map_some]
  rfl

/-- the groups of the clauses start one after the other -/
theorem isChain_firstIndex {builder : Runtime.TxBuilder crates.toRuntimeCrates}
    {context : Runtime.TxContext} {bound : Runtime.ResolveContext} {position : Nat}
    {input : Runtime.ResolveActorInput} {env : Sil.Env} {clauses : List (SpawnDecl × CovenantGroup)}
    {groups : List (List Nat)}
    (h : List.Forall₂ (ClausePassed builder context bound position input env) clauses groups)
    (hincreasing : groups.Pairwise Runtime.TxBuilder.StartsBefore) :
    (clauses.filterMap (firstIndex (witnessedIndex env))).IsChain (· < ·) := by
  refine List.isChain_iff_pairwise.mpr (List.pairwise_filterMap.mpr ?_)
  refine pairwise_of_forall₂ h hincreasing ?_
  rintro clause group clause' group' hclause hclause' ⟨first, second, hfirst, hsecond, hlt⟩ m hm n hn
  rw [firstIndex_eq, indices_eq hclause.lookup, List.head?_map, hfirst] at hm
  rw [firstIndex_eq, indices_eq hclause'.lookup, List.head?_map, hsecond] at hn
  cases hm
  cases hn
  exact Int.ofNat_lt.mpr hlt

theorem exists_active {builder : Runtime.TxBuilder crates.toRuntimeCrates} {context : Runtime.TxContext}
    {unsigned : Runtime.MutableTransaction} {bound final : Runtime.ResolveContext}
    (h : Prepared builder context unsigned bound final) {tx : Transaction} (hseen : Seen unsigned tx)
    {index : Nat} {input : Runtime.ResolveInput} (hinput : final.inputs[index]? = some input) :
    ∃ active, tx.inputs[index]? = some active := by
  obtain ⟨withArgs, withObservations, withSpawns, hargs, hobserve, hspawns, hhidden⟩ := h.passes
  obtain ⟨hunfilled, -⟩ :=
    Runtime.passes_ok (Runtime.bindContext_unfilled h.bind) hargs hobserve hspawns hhidden
  have hframe := Runtime.unsignedTransaction_ok h.bind h.transaction
  obtain ⟨_, _, _, hphases⟩ := Runtime.TxBuilder.bindContext_phases h.bind
  have hfinal : bound.inputs.length = final.inputs.length := by
    rw [← hunfilled]
    exact List.length_map _
  have hbound : context.inputs.length = bound.inputs.length := (mapM_ok hphases.inputs_ok).length_eq
  have hlength := congrArg List.length hseen.inputs
  rw [hframe.inputs_eq, List.length_map, List.length_map, List.length_map] at hlength
  have hlt := (List.getElem?_eq_some_iff.mp hinput).1
  exact ⟨_, List.getElem?_eq_getElem (by omega)⟩

/-- **The spawn checks of every entry pass on every transaction that the builder prepares: with the
hidden arguments that the builder passes, the statements of the entry run to their end, and each clause
finds the id that the builder gave to all outputs of its group.** -/
theorem preparedSpawns_pass {builder : Runtime.TxBuilder crates.toRuntimeCrates}
    {context : Runtime.TxContext} {unsigned : Runtime.MutableTransaction}
    {bound final : Runtime.ResolveContext} (h : Prepared builder context unsigned bound final)
    {ctx : SpawnContext} (hseen : Seen unsigned ctx.tx) (hlimits : Limits ctx.tx)
    (hcommits : Commits crates.toRuntimeCrates ctx.covenantHash) {input : Runtime.ResolveActorInput}
    (hinput : final.inputs[ctx.active]? = some (.actor input)) {hiddenArgs : List ArtifactValue}
    (hargs : input.hiddenArgs = some hiddenArgs) {planned : PlannedEntry}
    (hemitted : SpawnsEmitted planned input.artifactEntry) {env : Sil.Env}
    (hpassed : ArgsPassed env input.artifactEntry.hiddenParams hiddenArgs)
    {statements : List SpawnStatement} (hprelude : spawnPrelude planned.entry = some statements)
    (hfresh : Fresh env statements) :
    ∃ out, runAll ctx.language env statements = some out ∧
      ∀ clause ∈ planned.entry.genesisGroups, ∃ authorizingInput id, authorizingInput.toNat = ctx.active ∧
        out.lookup clause.1.covenant = some (.bytes id.bytes) ∧
        (Runtime.groupIndices context authorizingInput ("spawn::" ++ clause.1.name)).length =
          clause.2.outputs.items.length ∧
        ∀ index ∈ Runtime.groupIndices context authorizingInput ("spawn::" ++ clause.1.name), ∃ output,
          unsigned.tx.outputs[index]? = some output ∧ output.covenant = some ⟨authorizingInput, id⟩ := by
  obtain ⟨matched, groups, args, hmatched, hentry, hsame⟩ := exists_inputMatched h hinput
  obtain rfl := Option.some_inj.mp (hargs.symm.trans hsame)
  rw [hentry] at hemitted hpassed
  obtain ⟨active, hactive⟩ := exists_active h hseen hinput
  obtain ⟨_, _, _, hphases⟩ := Runtime.TxBuilder.bindContext_phases h.bind
  have hframe := Runtime.unsignedTransaction_ok h.bind h.transaction
  have hclauses := forall₂_clausePassed hmatched hemitted hpassed
  have hlookup : ∀ clause ∈ planned.entry.genesisGroups, ∀ output ∈ clause.2.outputs.items,
      env.lookup (hiddenSpawnOutputIdxName clause.1.name output.handle) =
        some (.int (witnessedIndex env clause.1 output)) := by
    intro clause hclause output houtput
    obtain ⟨group, -, hpair⟩ := mem_of_forall₂_left hclauses hclause
    obtain ⟨index, -, hindex⟩ := mem_of_forall₂_left hpair.lookup houtput
    rw [hindex, witnessedIndex_eq hindex]
  -- the group of every clause is what its statements describe
  have hgroups : ∀ clause ∈ planned.entry.genesisGroups, ∃ items authorizingInput id,
      authorizingInput.toNat = ctx.active ∧
      (Runtime.groupIndices context authorizingInput ("spawn::" ++ clause.1.name)).length =
        clause.2.outputs.items.length ∧
      Described ctx active.outpoint (indices (witnessedIndex env) clause) items id.bytes ∧
      ∀ index ∈ Runtime.groupIndices context authorizingInput ("spawn::" ++ clause.1.name), ∃ output,
        unsigned.tx.outputs[index]? = some output ∧ output.covenant = some ⟨authorizingInput, id⟩ := by
    intro clause hclause
    obtain ⟨group, -, hlooked, spawn, hname, hpair⟩ := mem_of_forall₂_left hclauses hclause
    have hne : group ≠ [] := by
      intro hnil
      have hstarts : ∃ first, firstIndex (witnessedIndex env) clause = some first :=
        exists_firstIndex hprelude clause hclause
      obtain ⟨first, hfirst⟩ := hstarts
      rw [firstIndex_eq, indices_eq hlooked, hnil] at hfirst
      cases hfirst
    obtain ⟨items, authorizingInput, id, hauthorizing, hgroup, hdescribed, hcarried⟩ :=
      described_of_matched hphases h.transaction hframe hseen hlimits hcommits hactive hpair hne
    refine ⟨items, authorizingInput, id, hauthorizing, ?_⟩
    rw [← hname, indices_eq hlooked, ← hgroup, hlooked.length_eq]
    exact ⟨rfl, hdescribed, hcarried⟩
  have hrun := @run_spawnClauses ctx env active (witnessedIndex env) hlimits hactive _ _ none hprelude
    hlookup (by simp) hfresh
  obtain ⟨out, hout⟩ := hrun.1.mpr ⟨fun clause hclause => by
    obtain ⟨items, authorizingInput, id, -, -, hdescribed, -⟩ := hgroups clause hclause
    exact ⟨items, id.bytes, hdescribed⟩, isChain_firstIndex hclauses hmatched.increasing⟩
  obtain ⟨ids, hids⟩ := hrun.2 out hout
  refine ⟨out, hout, fun clause hclause => ?_⟩
  obtain ⟨items, authorizingInput, id, hauthorizing, hlength, hdescribed, hcarried⟩ :=
    hgroups clause hclause
  obtain ⟨found, -, ⟨others, hother⟩, hcovenant⟩ := mem_of_forall₂_left hids hclause
  rw [hother.unique hdescribed] at hcovenant
  exact ⟨authorizingInput, id, hauthorizing, hcovenant, hlength, hcarried⟩

end

/-! ## an example -/

/-- a script hash, of zeros for a script that is not in the table -/
def paddedScript (script : Bytes) : Runtime.ScriptPublicKey :=
  ⟨0, [170, 32] ++ (Runtime.scriptHashes.lookup script).getD (List.replicate 32 0) ++ [135]⟩

/-- a queen and a drone, with a drone of another group between them -/
def nestGroups : List (List (UInt32 × Runtime.TransactionOutput)) :=
  [[(0, ⟨1000, paddedScript ([1, 10, 64] ++ Artifacts.queenHash.bytes ++ Artifacts.workerHash.bytes ++
      [1, 7, 9]), none⟩), (2, ⟨2000, paddedScript [1, 12, 1, 0, 9], none⟩)],
    [(1, ⟨500, paddedScript [1, 12, 1, 0, 9], none⟩)]]

def nestBroodId : Artifacts.Digest where
  bytes := [10, 248, 199, 235, 136, 104, 72, 59, 140, 206, 5, 131, 124, 252, 222, 18, 95, 168, 17,
    112, 18, 90, 241, 224, 158, 177, 8, 201, 31, 75, 39, 100]
  length_bytes := rfl

def nestSwarmId : Artifacts.Digest where
  bytes := [138, 255, 56, 231, 0, 103, 76, 170, 187, 226, 214, 165, 244, 178, 182, 223, 86, 166, 174, 164, 39,
    66, 63, 240, 6, 181, 24, 162, 190, 165, 244, 46]
  length_bytes := rfl

/-- the preimages of both groups with the ids that are hashed from them -/
def nestHashes : List (Bytes × Artifacts.Digest) :=
  (nestGroups.map (covenantIdPreimage Runtime.broodOutpoint)).zip [nestBroodId, nestSwarmId]

def nestHash (preimage : Bytes) : Artifacts.Digest := (nestHashes.lookup preimage).getD default

def broodCrates : Runtime.TransactionCrates :=
  { Runtime.hiveTransactionCrates with
    payToScriptHash := paddedScript
    covenantId := fun outpoint outputs => nestHash (covenantIdPreimage outpoint outputs) }

/-- a drone that breeds a queen and a twin, and a scout between them -/
def nestContext : Runtime.TxContext where
  inputs := [.actor
    { actor := ⟨none, "Drone"⟩
      state := Runtime.cellState 0
      entry := ⟨"breed", .static [.value (.bytes Artifacts.queenHandleHash.bytes)]⟩
      outpoint := Runtime.broodOutpoint
      utxo := ⟨4000, paddedScript [1, 12, 1, 0, 9], 0, false, some (Artifacts.Digest.repeated 34)⟩
      sequence := 0 }]
  outputs :=
    [⟨.actor ⟨none, "Queen"⟩ (.static (Runtime.cellState 7)), .genesis 0 "spawn::brood", 1000⟩,
      ⟨.actor ⟨none, "Drone"⟩ (.static (Runtime.cellState 0)), .genesis 0 "spawn::swarm", 500⟩,
      ⟨.actor ⟨none, "Drone"⟩ (.static (Runtime.cellState 0)), .genesis 0 "spawn::brood", 2000⟩]
  lockTime := 0
  subnetworkId := []
  gas := 0
  payload := []

theorem drone_leads : EntryKind.leader = .delegate → InteractionSection.empty.items = [] := by
  intro h
  cases h

theorem breed_analyzed : analyzeAuthoredEntryRoutes [.become []] = .ok ⟨[], [[]]⟩ := rfl

/-- an entry of a drone that breeds a grub of a kind and a twin, and a scout of its own group -/
def breedModel : EntryModel where
  name := "breed"
  kind := .leader
  current := ⟨.current, .empty, .empty⟩
  foreign := [⟨.genesis ⟨"brood", "brood_id"⟩, .empty,
    ⟨[⟨"grub", .source "kind", .one, .fromStart 0⟩,
      ⟨"twin", .static [.inApp "Drone"], .one, .fromStart 1⟩], rfl⟩⟩,
    ⟨.genesis ⟨"swarm", "swarm_id"⟩, .empty,
      ⟨[⟨"scout", .static [.inApp "Drone"], .one, .fromStart 0⟩], rfl⟩⟩]
  templateSelectors := []
  body := [.become []]
  analysis := ⟨[], [[]]⟩
  analyzed := breed_analyzed
  delegateEmits := drone_leads

/-- the kind is an argument of the entry -/
def breedBindings (_ : String) : ClauseBindings := fun expression =>
  if expression = "kind" then
    .actorType (.entryArgument ⟨"kind", by decide +kernel⟩) ⟨⟨"Cell", by decide +kernel⟩, []⟩
  else .unbound

def breedOutputs : List SpawnActorWitnessSpec :=
  (entrySpawnOutputs breedBindings breedModel).toOption.get (by decide +kernel)

def breedPlanned : PlannedEntry where
  actor := ⟨"Drone", "Cell", [breedModel]⟩
  entry := breedModel
  witnesses := {
    templates := []
    families := []
    importedTemplates := []
    selectors := []
    observedActors := []
    spawnOutputs := breedOutputs
    actorTypeSourceTemplates := actorTypeSourceTemplates [] breedOutputs
    stateExpansions := []
    observedOutputFields := [] }

/-- a hidden parameter of the drone's entry -/
def breedParam (root name : String) (ty : Artifacts.TypeArtifact)
    (subject : Artifacts.HiddenParamSubjectArtifact)
    (purpose : Artifacts.HiddenParamPurposeArtifact) : HiddenParamArtifact :=
  ⟨"witness/Drone/breed/" ++ root, name, ty, subject, purpose, none⟩

def breedParams : List HiddenParamArtifact :=
  [breedParam "spawn/brood/grub/spawn_output_index" "gen__brood_grub_output_idx" .int
      (.spawnActor "brood" "grub" "kind") .spawnOutputIndex,
    breedParam "spawn/brood/twin/spawn_output_index" "gen__brood_twin_output_idx" .int
      (.spawnActor "brood" "twin" "Drone") .spawnOutputIndex,
    breedParam "spawn/swarm/scout/spawn_output_index" "gen__swarm_scout_output_idx" .int
      (.spawnActor "swarm" "scout" "Drone") .spawnOutputIndex,
    breedParam "actor_type/arg_kind/template_prefix_bytes" "gen__actor_type_arg_kind_prefix" .bytes
      (.spawnActor "brood" "grub" "kind") .templatePrefixBytes,
    breedParam "actor_type/arg_kind/template_suffix_bytes" "gen__actor_type_arg_kind_suffix" .bytes
      (.spawnActor "brood" "grub" "kind") .templateSuffixBytes]

theorem breedPlanned_hiddenParams : breedPlanned.hiddenParams = breedParams := by decide +kernel

/-- the entry of the artifact, with the hidden parameters of the plan -/
def plannedBreed : EntryArtifact :=
  { Artifacts.breedEntry with
    hiddenParams := breedParams
    spawns := Artifacts.breedEntry.spawns ++
      [⟨"swarm", "swarm_id", [⟨"scout", "Drone", "Cell", 0, .one, none⟩]⟩] }

def plannedHive : Artifacts.Artifact :=
  { Artifacts.hive with
    argent := { Artifacts.hive.argent with
      templatePlan := { Artifacts.hivePlan with
        witnessRecipes := breedParams.map fun param =>
          ⟨param.recipeId, none, param.subject, param.name, param.purpose, none⟩ }
      actors := [Artifacts.hiveActor "Queen" [], Artifacts.hiveActor "Worker" [],
        Artifacts.hiveActor "Drone" [plannedBreed]] }
    silAbi := { Artifacts.hive.silAbi with
      contracts := Artifacts.hive.silAbi.contracts.insert "Drone"
        (Artifacts.hiveContract 12 [1, 0] Artifacts.droneHash [⟨"age", .byte⟩]
          (BTreeMap.ofList [("breed", ⟨⟨"kind", .fixedBytes 32⟩ ::
            breedParams.map fun param => ⟨param.name, param.ty⟩⟩)])) } }

theorem plannedHive_isOk : (plannedHive.checkConsistency Artifacts.hiveCrates).isOk = true := by
  decide +kernel

theorem plannedHive_attached : Runtime.Attached Artifacts.hiveCrates "hive" plannedHive := by
  obtain ⟨_, h⟩ := exists_ok_of_isOk plannedHive_isOk
  exact ⟨by decide +kernel, h⟩

def plannedBundle : Runtime.ArtifactBundle Artifacts.hiveCrates where
  primaryAlias := "hive"
  apps := (∅ : BTreeMap String Artifacts.Artifact).insert "hive" plannedHive
  primary_mem := by rw [BTreeMap.get_insert_self]; rfl
  attached appAlias artifact h := by
    rw [BTreeMap.get_insert] at h
    split_ifs at h with happ
    · obtain rfl := Option.some.inj h
      exact happ ▸ plannedHive_attached
    · cases h

def plannedBuilder : Runtime.TxBuilder broodCrates.toRuntimeCrates where
  bundle := plannedBundle
  dependencies := by rfl
  interfaces := by rfl

def plannedBound : Runtime.ResolveContext :=
  (plannedBuilder.bindContext nestContext).toOption.get (by decide +kernel)

def plannedUnsigned : Runtime.MutableTransaction :=
  (Runtime.TxBuilder.unsignedTransaction broodCrates.toRuntimeCrates plannedBound).toOption.get
    (by decide +kernel)

def plannedArgs : Runtime.ResolveContext :=
  (Runtime.resolveContextArgs plannedBound plannedUnsigned).toOption.get (by decide +kernel)

def plannedObservations : Runtime.ResolveContext :=
  (plannedBuilder.resolveContextObservations plannedArgs plannedUnsigned).toOption.get
    (by decide +kernel)

def plannedSpawns : Runtime.ResolveContext :=
  (plannedBuilder.resolveContextSpawns plannedObservations).toOption.get (by decide +kernel)

def plannedFinal : Runtime.ResolveContext :=
  (plannedBuilder.resolveContextHiddenArgs plannedSpawns).toOption.get (by decide +kernel)

theorem plannedFinal_prepared :
    Prepared plannedBuilder nestContext plannedUnsigned plannedBound plannedFinal :=
  ⟨eq_ok_get _, eq_ok_get _, plannedArgs, plannedObservations, plannedSpawns, eq_ok_get _, eq_ok_get _,
    eq_ok_get _, eq_ok_get _⟩

def actorInput? : Runtime.ResolveInput → Option Runtime.ResolveActorInput
  | .actor input => some input
  | .ordinary _ => none

def intValue? : ArtifactValue → Option Int
  | .int n => some n
  | _ => none

def plannedInput : Runtime.ResolveActorInput :=
  (plannedFinal.inputs[0]?.bind actorInput?).get (by decide +kernel)

theorem plannedInput_eq : plannedFinal.inputs[0]? = some (.actor plannedInput) := by
  have h : plannedFinal.inputs[0]?.bind actorInput? = some plannedInput := (Option.some_get _).symm
  obtain ⟨input, hinput, h⟩ := Option.bind_eq_some_iff.mp h
  cases input with
  | actor input =>
    rw [hinput, Option.some_inj.mp h]
  | ordinary input => cases h

/-- the indices of the grub, the twin and the scout -/
def breedEnv : Sil.Env :=
  [("gen__brood_grub_output_idx", .int 0), ("gen__brood_twin_output_idx", .int 2),
    ("gen__swarm_scout_output_idx", .int 1)]

def plannedHiddenArgs : List ArtifactValue := plannedInput.hiddenArgs.get (by decide +kernel)

theorem plannedHiddenArgs_passed :
    ArgsPassed breedEnv plannedInput.artifactEntry.hiddenParams plannedHiddenArgs := by
  have hnames : List.Forall₂ (fun (param : HiddenParamArtifact) (n? : Option Int) => ∀ n ∈ n?,
      breedEnv.lookup param.name = some (.int n)) plannedInput.artifactEntry.hiddenParams
        (plannedHiddenArgs.map intValue?) := by
    decide +kernel
  refine (List.forall₂_map_right_iff.mp hnames).imp ?_
  rintro param arg h n rfl
  exact h n rfl

/-- the transaction of the brood, as its scripts see it -/
def broodScriptContext : SpawnContext where
  tx :=
    { inputs := plannedUnsigned.tx.inputs.map fun input =>
        ⟨seenOutpoint input.previousOutpoint, none, [], []⟩
      outputs := plannedUnsigned.tx.outputs.map seenOutput }
  active := 0
  blake2bWithKey preimage _ := (nestHash preimage).bytes

theorem broodScriptContext_seen : Seen plannedUnsigned broodScriptContext.tx :=
  ⟨List.map_map, rfl⟩

theorem paddedScript_length (script : Bytes) :
    (paddedScript script).script.length = P2SH_SCRIPT_LEN := by
  have hlength : ((Runtime.scriptHashes.lookup script).getD (List.replicate 32 0)).length = 32 := by
    have hall : ∀ pair ∈ Runtime.scriptHashes, pair.2.length = 32 := by decide
    cases hlookup : Runtime.scriptHashes.lookup script with
    | none => rfl
    | some hash =>
      obtain ⟨front, back, hsplit, -⟩ := List.lookup_eq_some_iff.mp hlookup
      exact hall (script, hash) (by rw [hsplit]; simp)
  unfold paddedScript
  rw [List.length_append, List.length_append, hlength]
  rfl

theorem broodCrates_commits : Commits broodCrates.toRuntimeCrates broodScriptContext.covenantHash where
  covenantId _ _ _ _ := rfl
  scriptHash script := ⟨rfl, paddedScript_length script⟩

theorem plannedBreed_emitted : SpawnsEmitted breedPlanned plannedInput.artifactEntry where
  spawnOutputs := ⟨breedBindings, eq_ok_get (by decide +kernel)⟩
  hiddenParams := by
    rw [breedPlanned_hiddenParams]
    decide +kernel
  spawns := ⟨fun output => ⟨if output.handle = "grub" then "kind" else "Drone", "Cell", none⟩, by
    decide +kernel⟩

/-- the drone's checks find the ids of its brood and of its swarm -/
theorem preparedSpawns_pass_brood : ∃ statements out,
    spawnPrelude breedModel = some statements ∧
      runAll broodScriptContext.language breedEnv statements = some out ∧
      ∀ clause ∈ breedModel.genesisGroups, ∃ authorizingInput id, authorizingInput.toNat = 0 ∧
        out.lookup clause.1.covenant = some (.bytes id.bytes) ∧
        (Runtime.groupIndices nestContext authorizingInput ("spawn::" ++ clause.1.name)).length =
          clause.2.outputs.items.length ∧
        ∀ index ∈ Runtime.groupIndices nestContext authorizingInput ("spawn::" ++ clause.1.name),
          ∃ output, plannedUnsigned.tx.outputs[index]? = some output ∧
            output.covenant = some ⟨authorizingInput, id⟩ := by
  have hprelude : ∃ statements, spawnPrelude breedModel = some statements := ⟨_, rfl⟩
  obtain ⟨statements, hprelude⟩ := hprelude
  have hnames : (spawnPrelude breedModel).map definedNames =
      some ["gen__brood_genesis_preimage", "brood_id", "gen__swarm_genesis_preimage", "swarm_id"] := by
    decide +kernel
  rw [hprelude] at hnames
  have hfresh : Fresh breedEnv statements := by
    constructor <;> rw [Option.some_inj.mp hnames] <;> decide
  have hlimits : Limits broodScriptContext.tx := ⟨by decide +kernel, by decide +kernel⟩
  obtain ⟨out, hout, hclauses⟩ := preparedSpawns_pass plannedFinal_prepared broodScriptContext_seen
    hlimits broodCrates_commits plannedInput_eq (Option.some_get _).symm plannedBreed_emitted
    plannedHiddenArgs_passed hprelude hfresh
  exact ⟨statements, out, hprelude, hout, hclauses⟩

end Argent.Codegen
