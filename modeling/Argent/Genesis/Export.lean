import Argent.Genesis.Bootstrap
import Argent.Runtime.BindSound

/-!
# Export and composition agree

A group that is exported from a transaction context and composed again has the covenant id that
binding gives its outputs.

* `exportOutput_ok`      what an exported output takes over from its source;
* `materialize_hashed`      the preimage computed from an exported output is the one that is hashed;
* `compose_fromContext`      **the composed proof claims the id that binding assigns**.
-/

set_option linter.unusedSectionVars false

namespace Argent.Genesis
open Argent.Fallible Argent.Artifacts Argent.Runtime Argent.Runtime.TxBuilder

/-! ## one output -/

/-- an output of the group as it is exported -/
structure Exported (crates : RuntimeCrates) (bundle : ArtifactBundle crates.toCrates)
    (source : ContextOutput) (outputIndex : Nat) (path : ActorPath)
    (state : BTreeMap String ArtifactValue) (output : ArgentGenesisOutput) : Prop where
  owner_eq : source.owner = .actor path (.static state)
  app_eq : path.app.getD bundle.primaryAlias = bundle.primaryAlias
  index_eq : toU32 outputIndex = some output.index
  value_eq : output.value = source.value
  actor_eq : output.actor = path.actor
  state_eq : output.authoredState = state

variable {crates : RuntimeCrates} {bundle : ArtifactBundle crates.toCrates}

theorem exportOutput_ok {source : ContextOutput} {outputIndex : Nat} {output : ArgentGenesisOutput}
    (h : exportOutput bundle (source, outputIndex) = .ok output) :
    ∃ path state, Exported crates bundle source outputIndex path state output := by
  unfold exportOutput at h
  dsimp only at h
  cases howner : source.owner with
  | spk scriptPublicKey =>
    rw [howner] at h
    cases h
  | actor path state =>
    rw [howner] at h
    obtain ⟨happ, h⟩ := check_eq_ok.mp h
    cases state with
    | withContext build => cases h
    | static state =>
      obtain ⟨index, hindex, h⟩ := bind_eq_ok.mp h
      obtain rfl := pure_eq_ok.mp h
      refine ⟨path, state, howner, ?_, okOr_eq_ok.mp hindex, rfl, rfl, rfl⟩
      rw [rejectIf_eq_ok] at happ
      cases halias : path.app with
      | none => rfl
      | some appAlias =>
        rw [halias, Option.any_some, bne_iff_ne, not_not] at happ
        exact happ

/-- what is hashed of an output, and what composition hashes of the exported one -/
def Composes (builder : TxBuilder crates) (output : ArgentGenesisOutput)
    (hashed : UInt32 × TransactionOutput) : Prop :=
  ∃ silOutput indexed, materializeActor builder output = .ok silOutput ∧
    materializeOutput crates [builder.bundle.primary.silAbi] silOutput = .ok indexed ∧
    hashed = (indexed.index, indexed.transactionOutput)

theorem bindActor_primary {builder : TxBuilder crates} {path : ActorPath} {contract : ContractRef}
    (happ : path.app.getD builder.bundle.primaryAlias = builder.bundle.primaryAlias)
    (h : builder.bindActor path = .ok contract) :
    contract.artifact = builder.bundle.primary ∧
      contractRefInArtifact builder.bundle.primary path.actor = .ok contract ∧
      builder.bundle.primary.silAbi.contract path.actor = some contract.contract := by
  obtain ⟨artifact, hartifact, h⟩ := bind_eq_ok.mp h
  rw [happ] at hartifact
  obtain rfl := Option.some.inj ((okOr_eq_ok.mp hartifact).symm.trans builder.bundle.primary_eq)
  obtain ⟨found, hfound, hcontract⟩ := bind_eq_ok.mp h
  obtain rfl := pure_eq_ok.mp hcontract
  exact ⟨rfl, h, okOr_eq_ok.mp hfound⟩

theorem actorScript_ok {contract : ContractRef} {state : BTreeMap String ArtifactValue}
    {script : ScriptPublicKey} (h : actorScript crates contract state = .ok script) :
    ∃ values redeemScript, runtimeStateValues crates contract.artifact contract.name
        contract.contract state = .ok values ∧
      materializeRedeemScript crates contract.artifact.silAbi contract.contract values =
        .ok redeemScript ∧ script = crates.payToScriptHash redeemScript := by
  obtain ⟨redeemScript, hredeem, h⟩ := bind_eq_ok.mp h
  obtain ⟨values, hvalues, hredeem⟩ := bind_eq_ok.mp hredeem
  exact ⟨values, redeemScript, hvalues, mapFault_eq_ok.mp hredeem, (pure_eq_ok.mp h).symm⟩

/-- composition derives from an exported output what binding hashes of its source -/
theorem materialize_hashed {builder : TxBuilder crates} {source : ContextOutput} {outputIndex : Nat}
    {output : ArgentGenesisOutput}
    (hexport : exportOutput builder.bundle (source, outputIndex) = .ok output)
    {inputs : List ResolveInput} {boundOutputs : List BoundOutput} {boundOutput : BoundOutput}
    (hbound : boundOutputs[outputIndex]? = some boundOutput)
    (hbeside : BoundBeside builder inputs (source, outputIndex) boundOutput)
    {hashed : UInt32 × TransactionOutput}
    (hhashed : genesisOutput crates boundOutputs outputIndex = .ok hashed) :
    Composes builder output hashed := by
  obtain ⟨path, state, hexported⟩ := exportOutput_ok hexport
  obtain ⟨contract, hcontract, howner⟩ := hbeside.actor path (.static state) hexported.owner_eq
  obtain ⟨hprimary, href, hlookup⟩ := bindActor_primary hexported.app_eq hcontract
  obtain ⟨found, hfound, hhashed⟩ := bind_eq_ok.mp hhashed
  obtain rfl := Option.some.inj (hbound.symm.trans (expect_eq_ok.mp hfound))
  obtain ⟨script, hscript, hhashed⟩ := bind_eq_ok.mp hhashed
  obtain ⟨word, hword, hhashed⟩ := bind_eq_ok.mp hhashed
  obtain rfl := pure_eq_ok.mp hhashed
  obtain rfl := Option.some.inj ((okOr_eq_ok.mp hword).symm.trans hexported.index_eq)
  rw [howner] at hscript
  obtain ⟨values, redeemScript, hvalues, hredeem, rfl⟩ := actorScript_ok hscript
  refine ⟨⟨output.index, output.value, 0, output.actor, values⟩,
    ⟨output.index, output.value, crates.payToScriptHash redeemScript⟩, ?_, ?_, ?_⟩
  · refine bind_eq_ok.mpr ⟨values, mapFault_eq_ok.mpr (bind_eq_ok.mpr ⟨contract, ?_, ?_⟩), rfl⟩
    · rw [hexported.actor_eq]
      exact href
    · rw [hexported.state_eq]
      exact hvalues
  · refine bind_eq_ok.mpr ⟨_, rfl, bind_eq_ok.mpr ⟨contract.contract, ?_, ?_⟩⟩
    · dsimp only
      rw [hexported.actor_eq, hlookup]
      rfl
    · refine bind_eq_ok.mpr ⟨redeemScript, mapFault_eq_ok.mpr ?_, rfl⟩
      rw [← hprimary]
      exact hredeem
  · rw [hexported.value_eq, hbeside.source_eq]
    rfl

/-! ## the group -/

/-- the outputs of a group are composed one by one -/
theorem composes_all {builder : TxBuilder crates} {outputs : List ArgentGenesisOutput}
    {hashed : List (UInt32 × TransactionOutput)}
    (h : List.Forall₂ (Composes builder) outputs hashed) :
    ∃ silOutputs indexedOutputs, outputs.mapM (materializeActor builder) = .ok silOutputs ∧
      materializeOutputs crates [builder.bundle.primary.silAbi] silOutputs = .ok indexedOutputs ∧
      hashed = indexedOutputs.map fun output => (output.index, output.transactionOutput) := by
  induction h with
  | nil => exact ⟨[], [], rfl, rfl, rfl⟩
  | cons houtput _ ih =>
    obtain ⟨silOutput, indexed, hsil, hindexed, rfl⟩ := houtput
    obtain ⟨silOutputs, indexedOutputs, hsils, hindexeds, rfl⟩ := ih
    refine ⟨silOutput :: silOutputs, indexed :: indexedOutputs, ?_, ?_, rfl⟩
    · rw [List.mapM_cons, hsil, hsils]
      rfl
    · unfold materializeOutputs at hindexeds ⊢
      rw [List.mapM_cons, hindexed, hindexeds]
      rfl

theorem isChain_of_hashed {boundOutputs : List BoundOutput} {context : TxContext}
    {authorizingInput : UInt16} {subgroup : String} {indexedOutputs : List IndexedGenesisOutput}
    (h : (groupIndices context authorizingInput subgroup).mapM
      (genesisOutput crates boundOutputs) =
        .ok (indexedOutputs.map fun output => (output.index, output.transactionOutput))) :
    indexedOutputs.IsChain IndexBefore := by
  have hwords : List.Forall₂ (fun index word => word = index)
      (groupIndices context authorizingInput subgroup)
      (indexedOutputs.map fun output => output.index.toNat) := by
    have hall := mapM_ok h
    rw [List.forall₂_map_right_iff] at hall ⊢
    refine hall.imp fun index output hhashed => ?_
    obtain ⟨_, -, hhashed⟩ := bind_eq_ok.mp hhashed
    obtain ⟨_, -, hhashed⟩ := bind_eq_ok.mp hhashed
    obtain ⟨word, hword, hhashed⟩ := bind_eq_ok.mp hhashed
    obtain ⟨rfl, -⟩ := Prod.mk.inj (pure_eq_ok.mp hhashed)
    exact toU32_ok (okOr_eq_ok.mp hword)
  have hsame : groupIndices context authorizingInput subgroup =
      indexedOutputs.map fun output => output.index.toNat :=
    List.forall₂_eq_eq_eq ▸ hwords.imp fun _ _ heq => heq.symm
  have hpairwise := pairwise_groupIndices context authorizingInput subgroup
  rw [hsame, List.pairwise_map] at hpairwise
  exact (hpairwise.imp fun hlt => UInt32.lt_iff_toNat_lt.mpr hlt).isChain

theorem composes_group {builder : TxBuilder crates} {context : TxContext} {bound : ResolveContext}
    {boundOutputs : List BoundOutput} {groups : GenesisGroups} {stateContext : StateContext}
    (hphases : Phases builder context bound boundOutputs groups stateContext)
    {authorizingInput : UInt16} {subgroup : String} {outputs : List ArgentGenesisOutput}
    (hexport : (context.outputs.zipIdx.filter fun item =>
      item.1.covenant = .genesis authorizingInput subgroup).mapM (exportOutput builder.bundle) =
        .ok outputs) {hashed : List (UInt32 × TransactionOutput)}
    (hhashed : (groupIndices context authorizingInput subgroup).mapM
      (genesisOutput crates boundOutputs) = .ok hashed) :
    List.Forall₂ (Composes builder) outputs hashed := by
  have hhashed' := mapM_ok hhashed
  unfold groupIndices at hhashed'
  rw [List.forall₂_map_left_iff] at hhashed'
  refine forall₂_beside (mapM_ok hexport) hhashed' ?_
  rintro ⟨source, index⟩ hmem output hashed houtput hhash
  have hsource := List.mem_zipIdx_iff_getElem?.mp (List.mem_filter.mp hmem).1
  obtain ⟨boundOutput, _, hbound, -, hbeside, -⟩ := hphases.output_at hsource
  exact materialize_hashed houtput hbound hbeside hhash

/-- every output of a group is bound to the id of the group -/
theorem group_bound {builder : TxBuilder crates} {context : TxContext} {bound : ResolveContext}
    {boundOutputs : List BoundOutput} {groups : GenesisGroups} {stateContext : StateContext}
    (hphases : Phases builder context bound boundOutputs groups stateContext)
    {authorizingInput : UInt16} {subgroup : String}
    (hnonempty : groupIndices context authorizingInput subgroup ≠ []) :
    ∃ authorizer hashed, context.inputs[authorizingInput.toNat]? = some authorizer ∧
      (groupIndices context authorizingInput subgroup).mapM
        (genesisOutput crates boundOutputs) = .ok hashed ∧
      ∀ index ∈ groupIndices context authorizingInput subgroup, ∃ output name,
        bound.outputs[index]? = some output ∧ output.binding =
          .genesis ⟨authorizingInput, crates.covenantId authorizer.outpoint hashed⟩ name := by
  have hbinding : ∀ index ∈ groupIndices context authorizingInput subgroup,
      ∃ output name covenantId, bound.outputs[index]? = some output ∧
        GenesisGroupName.parse subgroup = .ok name ∧
        stateContext.genesisCovenantId authorizingInput subgroup = some covenantId ∧
        output.binding = .genesis ⟨authorizingInput, covenantId⟩ name := by
    intro index hindex
    obtain ⟨source, hsource, hcovenant⟩ := mem_groupIndices.mp hindex
    obtain ⟨_, output, -, houtput, -, -⟩ := hphases.output_at hsource
    obtain ⟨name, covenantId, hrest⟩ := hphases.genesis_binding hsource hcovenant houtput
    exact ⟨output, name, covenantId, houtput, hrest⟩
  obtain ⟨first, hfirst⟩ := List.exists_mem_of_ne_nil _ hnonempty
  obtain ⟨_, _, _, -, hname, hid, -⟩ := hbinding first hfirst
  obtain ⟨authorizer, hashed, hauthorizer, hhashed, rfl⟩ := hphases.group_hashed hname hid
  refine ⟨authorizer, hashed, hauthorizer, hhashed, fun index hindex => ?_⟩
  obtain ⟨output, name, _, houtput, -, hid', houtputBinding⟩ := hbinding index hindex
  obtain rfl := Option.some.inj (hid.symm.trans hid')
  exact ⟨output, name, houtput, houtputBinding⟩

/-- If a context binds with the builder of a bundle and one of its genesis groups is exported, then
composing the export with the same bundle succeeds, and the proof claims the covenant id that
binding gives to every output of the group. -/
theorem compose_fromContext (crates : RuntimeCrates) (bundle : ArtifactBundle crates.toCrates)
    (builder : TxBuilder crates) (hbuilder : TxBuilder.fromBundle bundle = .ok builder)
    (context : TxContext) (bound : ResolveContext)
    (hbind : builder.bindContext context = .ok bound) (authorizingInput : UInt16)
    (subgroup : String) (bootstrap : ArgentCovenantBootstrap)
    (hexport : ArgentCovenantBootstrap.fromContext bundle context authorizingInput subgroup =
      .ok bootstrap) :
    groupIndices context authorizingInput subgroup ≠ [] ∧
    ∃ proof, bootstrap.compose bundle = .ok proof ∧
      ∀ index ∈ groupIndices context authorizingInput subgroup, ∃ output name,
        bound.outputs[index]? = some output ∧
        output.binding = .genesis ⟨authorizingInput, proof.claimedCovenantId⟩ name := by
  obtain rfl := fromBundle_ok hbuilder
  obtain ⟨boundOutputs, groups, stateContext, hphases⟩ := bindContext_phases hbind
  obtain ⟨authorizer, hauthorizer, hexport⟩ := bind_eq_ok.mp hexport
  obtain ⟨outputs, houtputs, hexport⟩ := bind_eq_ok.mp hexport
  obtain ⟨hnonempty, hexport⟩ := check_eq_ok.mp hexport
  obtain rfl := pure_eq_ok.mp hexport
  rw [rejectIf_eq_ok] at hnonempty
  have hgroup : groupIndices context authorizingInput subgroup ≠ [] := by
    intro hnil
    rw [List.map_eq_nil_iff.mp hnil] at houtputs
    exact hnonempty (pure_eq_ok.mp houtputs).symm
  obtain ⟨found, hashed, hfound, hhashed, hbinding⟩ := group_bound hphases hgroup
  obtain rfl := Option.some.inj ((okOr_eq_ok.mp hauthorizer).symm.trans hfound)
  obtain ⟨silOutputs, indexedOutputs, hsil, hindexed, rfl⟩ :=
    composes_all (composes_group hphases houtputs hhashed)
  have hattached := builder.bundle.attached _ _ builder.bundle.primary_eq
  have habis : ∀ abi ∈ [builder.bundle.primary.silAbi], crates.checkSilAbi abi = .ok () := by
    intro abi hmem
    rw [List.mem_singleton.mp hmem]
    exact (checkConsistency_ok hattached.consistent).silAbi
  have hindexedNil : indexedOutputs ≠ [] := by
    rintro rfl
    exact hgroup (List.length_eq_zero_iff.mp (mapM_ok hhashed).length_eq)
  have hid : computeCovenantId crates authorizer.outpoint indexedOutputs = .ok _ :=
    computeCovenantId_eq_ok.mpr ⟨⟨hindexedNil, isChain_of_hashed hhashed⟩, rfl⟩
  have hproof := SilGenesisProof.compose_eq_ok.mpr ⟨habis, _, _, hindexed, hid, rfl⟩
  refine ⟨hgroup, ⟨authorizer.outpoint, _, outputs⟩, ?_, hbinding⟩
  refine check_eq_ok.mpr ⟨rejectIf_eq_ok.mpr (not_not.mpr rfl), ?_⟩
  refine bind_eq_ok.mpr ⟨silOutputs, ?_, bind_eq_ok.mpr ⟨_, mapFault_eq_ok.mpr hproof, rfl⟩⟩
  exact bind_eq_ok.mpr ⟨builder, mapFault_eq_ok.mpr (fromBundle_bundle builder), hsil⟩

def broodBootstrap : ArgentCovenantBootstrap :=
  (ArgentCovenantBootstrap.fromContext hiveBuilder.bundle broodContext 0
    "spawn::brood").toOption.get (by decide +kernel)

theorem compose_fromContext_sample :
    groupIndices broodContext 0 "spawn::brood" ≠ [] ∧
    ∃ proof, broodBootstrap.compose hiveBuilder.bundle = .ok proof ∧
      ∀ index ∈ groupIndices broodContext 0 "spawn::brood", ∃ output name,
        broodBound.outputs[index]? = some output ∧
        output.binding = .genesis ⟨0, proof.claimedCovenantId⟩ name :=
  compose_fromContext hiveRuntimeCrates hiveBuilder.bundle hiveBuilder
    (fromBundle_bundle hiveBuilder) broodContext broodBound broodBound_eq 0 "spawn::brood"
    broodBootstrap (eq_ok_get _)

end Argent.Genesis
