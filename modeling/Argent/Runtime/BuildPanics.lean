import Argent.Runtime.BuildSound

/-!
# Panics between the passes

Each pass of the builder expects what earlier passes have filled in.  Whatever the context is, none
of these expectations fails.

* `passPanics`      the expectations;
* `build_avoids`      none of them fails;
* `build_corresponds`      **the built transaction is the described one, each input signed for its
                           own entry and position, and no pass finds less than it expects**.
-/

set_option linter.unusedSectionVars false

namespace Argent.Runtime
open Argent.Fallible Argent.Sil Argent.Artifacts

/-- what the passes expect of each other, and the indices that they pass on -/
def passPanics : List String :=
  [missingIdPanic, deferredPanic, TxBuilder.missingArgsPanic,
    "argument resolution precedes spawn resolution",
    "argument resolution precedes hidden-argument resolution",
    "observation resolution precedes hidden-argument resolution",
    "spawn resolution precedes hidden-argument resolution",
    "argument resolution precedes sigscript construction",
    "hidden-argument resolution precedes sigscript construction",
    "context transaction inputs always carry UTXO entries",
    "selected input utxo",
    "index out of bounds"]

/-! ## lookups -/

section
variable {bad : String → Prop}

theorem actorRefInArtifact_avoids (artifact : Artifact) (name : String) :
    Avoids bad (actorRefInArtifact artifact name) :=
  Avoids.bind (Avoids.okOr _ _) fun _ _ => Avoids.pure _

theorem contractRefInArtifact_avoids (artifact : Artifact) (name : String) :
    Avoids bad (contractRefInArtifact artifact name) :=
  Avoids.bind (Avoids.okOr _ _) fun _ _ => Avoids.pure _

section
variable {crates : Crates} (bundle : ArtifactBundle crates)

theorem contractRefInApp_avoids (app name : String) :
    Avoids bad (bundle.contractRefInApp app name) :=
  Avoids.bind (Avoids.okOr _ _) fun _ _ => contractRefInArtifact_avoids _ _

theorem validateActorInterface_avoids (artifact : Artifact) (app actor : String) :
    Avoids bad (bundle.validateActorInterface artifact app actor) := by
  refine Avoids.bind (Avoids.okOr _ _) fun _ _ => ?_
  refine Avoids.bind (Avoids.okOr _ _) fun _ _ => ?_
  exact Avoids.bind (Avoids.okOr _ _) fun _ _ => Avoids.rejectIf _ _

theorem observedContractRef_avoids (artifact : Artifact) (app contract : String) :
    Avoids bad (bundle.observedContractRef artifact app contract) :=
  Avoids.bind (validateActorInterface_avoids bundle _ _ _) fun _ _ =>
    contractRefInApp_avoids bundle _ _

theorem actorSubjectContractRef_avoids (artifact : Artifact) (actor : String) :
    Avoids bad (bundle.actorSubjectContractRef artifact actor) := by
  unfold ArtifactBundle.actorSubjectContractRef
  split_ifs
  · exact contractRefInArtifact_avoids _ _
  · exact Avoids.bind (Avoids.okOr _ _) fun _ _ => observedContractRef_avoids bundle _ _ _

theorem observedActor_avoids (entry : EntryArtifact) (observeName : String)
    (side : ObservedActorSideArtifact) (handle : String) :
    Avoids bad (observedActor entry observeName side handle) :=
  Avoids.bind (Avoids.okOr _ _) fun _ _ => Avoids.okOr _ _

theorem selectedActor_avoids (entry : EntryArtifact) (templateSelectors : BTreeMap String String)
    (selectorName : String) : Avoids bad (selectedActor entry templateSelectors selectorName) := by
  refine Avoids.bind (Avoids.okOr _ _) fun selector _ => ?_
  have hlast : ∀ selected, Avoids bad (do
      rejectIf (selected ∉ selector.variants)
        (.error (.invalidTemplateSelectorChoice selector.name selected))
      pure selected : BuilderResult String) := fun selected =>
    Avoids.bind (Avoids.rejectIf _ _) fun _ _ => Avoids.pure _
  dsimp only
  split
  · refine Avoids.bind (Avoids.rejectIf _ _) fun _ _ => ?_
    exact Avoids.bind (Avoids.pure _) fun _ _ => hlast _
  · exact Avoids.bind (Avoids.pure _) fun _ _ => hlast _
  · exact Avoids.bind (Avoids.pure _) fun _ _ => hlast _
  · exact Avoids.bind (Avoids.fail _) fun _ _ => hlast _

/-! ## hidden templates -/

theorem hiddenTemplateContractRef_avoids (artifact : Artifact) (hidden : HiddenParamArtifact)
    (entry : EntryArtifact) (templateSelectors : BTreeMap String String)
    (contexts : HiddenArgContexts) :
    Avoids bad (bundle.hiddenTemplateContractRef artifact hidden entry templateSelectors
      contexts) := by
  unfold ArtifactBundle.hiddenTemplateContractRef
  split
  · exact actorSubjectContractRef_avoids bundle _ _
  · split
    · exact contractRefInApp_avoids bundle _ _
    · refine Avoids.bind (observedActor_avoids _ _ _ _) fun _ _ => ?_
      split
      · exact Avoids.fail _
      · split_ifs
        · exact contractRefInArtifact_avoids _ _
        · exact observedContractRef_avoids bundle _ _ _
  · exact Avoids.bind (Avoids.okOr _ _) fun _ _ => contractRefInApp_avoids bundle _ _
  · refine Avoids.bind (selectedActor_avoids _ _ _) fun _ _ => ?_
    exact contractRefInArtifact_avoids _ _
  all_goals exact Avoids.fail _

theorem importedApp_avoids (entry : EntryArtifact) (hidden : HiddenParamArtifact) :
    Avoids bad (ArtifactBundle.importedApp entry hidden) := by
  unfold ArtifactBundle.importedApp
  split
  · exact Avoids.pure _
  · refine Avoids.bind (observedActor_avoids _ _ _ _) fun _ _ => ?_
    split <;> exact Avoids.pure _
  · exact Avoids.pure _

theorem openState_avoids (entry : EntryArtifact) (hidden : HiddenParamArtifact) :
    Avoids bad (ArtifactBundle.openState entry hidden) := by
  unfold ArtifactBundle.openState
  split
  · refine Avoids.bind (observedActor_avoids _ _ _ _) fun _ _ => ?_
    split <;> exact Avoids.pure _
  · exact Avoids.pure _
  · exact Avoids.pure _

theorem openTemplate_avoids (contractRef : ContractRef) (openState : String) :
    Avoids bad (ArtifactBundle.openTemplate contractRef openState) := by
  refine Avoids.bind (actorRefInArtifact_avoids _ _) fun actorRef _ => ?_
  dsimp only
  split_ifs
  · exact Avoids.pure _
  · refine Avoids.bind (Avoids.okOr _ _) fun _ _ => ?_
    exact Avoids.bind (Avoids.rejectIf _ _) fun _ _ => Avoids.pure _

theorem hiddenTemplate_avoids (artifact : Artifact) (hidden : HiddenParamArtifact)
    (entry : EntryArtifact) (templateSelectors : BTreeMap String String)
    (contexts : HiddenArgContexts) :
    Avoids bad (bundle.hiddenTemplate artifact hidden entry templateSelectors contexts) := by
  refine Avoids.bind (hiddenTemplateContractRef_avoids bundle _ _ _ _ _) fun contractRef _ => ?_
  refine Avoids.bind (importedApp_avoids _ _) fun imported _ => ?_
  cases imported with
  | some app =>
    dsimp only
    split_ifs
    · exact Avoids.pure _
    · refine Avoids.bind (actorRefInArtifact_avoids _ _) fun _ _ => ?_
      exact Avoids.bind (Avoids.okOr _ _) fun _ _ => Avoids.pure _
  | none =>
    refine Avoids.bind (openState_avoids _ _) fun view _ => ?_
    cases view with
    | none => exact Avoids.pure _
    | some view => exact openTemplate_avoids _ _

end

/-! ## hidden arguments -/

section
variable {crates : RuntimeCrates} (builder : TxBuilder crates)

theorem proofBytes_avoids (leaf : RouteTemplateProofLeafArtifact) :
    Avoids bad (proofBytes crates leaf) :=
  Avoids.bind (Avoids.mapM fun _ _ => Avoids.orFail _ _) fun _ _ => Avoids.pure _

theorem routeTemplateProofBytes_avoids (artifact : Artifact) (routeProofId : String)
    (wantedLeaf : RouteTemplateLeafArtifact) :
    Avoids bad (routeTemplateProofBytes crates artifact routeProofId wantedLeaf) := by
  refine Avoids.bind (Avoids.okOr _ _) fun _ _ => ?_
  exact Avoids.bind (Avoids.okOr _ _) fun _ _ => proofBytes_avoids _

theorem routeTemplateProofBytesForActor_avoids (artifact : Artifact)
    (routeProofId actor : String) :
    Avoids bad (routeTemplateProofBytesForActor crates artifact routeProofId actor) := by
  refine Avoids.bind (Avoids.okOr _ _) fun _ _ => ?_
  exact Avoids.bind (Avoids.okOr _ _) fun _ _ => proofBytes_avoids _

theorem routeFamilyTableBytes_avoids (artifact : Artifact) (familyId : String) :
    Avoids bad (routeFamilyTableBytesInArtifact artifact familyId) := by
  refine Avoids.bind (Avoids.okOr _ _) fun _ _ => ?_
  refine Avoids.bind (Avoids.okOr _ _) fun _ _ => ?_
  refine Avoids.bind (Avoids.mapM fun _ _ => ?_) fun _ _ => Avoids.pure _
  split
  · exact Avoids.bind (Avoids.okOr _ _) fun _ _ => Avoids.pure _
  · exact Avoids.fail _

theorem hiddenActorSubject_avoids (hidden : HiddenParamArtifact) :
    Avoids bad (hiddenActorSubject hidden) := by
  unfold hiddenActorSubject
  split
  · exact Avoids.pure _
  · exact Avoids.pure _
  · exact Avoids.pure _
  · exact Avoids.fail _

theorem hiddenFamilySubject_avoids (hidden : HiddenParamArtifact) :
    Avoids bad (hiddenFamilySubject hidden) := by
  unfold hiddenFamilySubject
  split
  · exact Avoids.pure _
  · exact Avoids.fail _

theorem spawnOutputIndexArg_avoids (entry : EntryArtifact) (hidden : HiddenParamArtifact)
    (contexts : HiddenArgContexts) : Avoids bad (spawnOutputIndexArg entry hidden contexts) := by
  unfold spawnOutputIndexArg
  split
  · exact Avoids.bind (Avoids.okOr _ _) fun _ _ => Avoids.pure _
  · exact Avoids.fail _

theorem stateExpansionPreimageArg_avoids (artifact : Artifact) (contractName : String)
    (contract : SilContractArtifact) (hidden : HiddenParamArtifact)
    (sourceState : BTreeMap String ArtifactValue) :
    Avoids bad (stateExpansionPreimageArg crates artifact contractName contract hidden
      sourceState) := by
  unfold stateExpansionPreimageArg
  split
  · refine Avoids.bind (actorRefInArtifact_avoids _ _) fun _ _ => ?_
    refine Avoids.bind (Avoids.rejectIf _ _) fun _ _ => ?_
    refine Avoids.bind (TxBuilder.stateExpansionPreimagePayload_avoids _ _ _ _ _ _) fun _ _ => ?_
    exact Avoids.pure _
  · exact Avoids.fail _

variable (hbad : ∀ message ∈ TxBuilder.artifactPanics, ¬ bad message)
include hbad

theorem silParts_avoids (contract : SilContractArtifact) :
    Avoids bad (TemplateRef.silParts crates.toCrates contract) :=
  Avoids.bind (Avoids.expect _ (hbad _ (by decide))) fun _ _ => Avoids.pure _

theorem prefixBytes_avoids (template : TemplateRef) :
    Avoids bad (template.prefixBytes crates.toCrates) := by
  cases template with
  | sil contract => exact Avoids.bind (silParts_avoids hbad contract) fun _ _ => Avoids.pure _
  | actorType template => exact Avoids.pure _

theorem suffixBytes_avoids (template : TemplateRef) :
    Avoids bad (template.suffixBytes crates.toCrates) := by
  cases template with
  | sil contract => exact Avoids.bind (silParts_avoids hbad contract) fun _ _ => Avoids.pure _
  | actorType template => exact Avoids.pure _

theorem suffixLen_avoids (template : TemplateRef) :
    Avoids bad (template.suffixLen crates.toCrates) := by
  cases template with
  | sil contract => exact Avoids.bind (silParts_avoids hbad contract) fun _ _ => Avoids.pure _
  | actorType template => exact Avoids.pure _

theorem observedOutputFieldArg_avoids (hidden : HiddenParamArtifact)
    (contexts : HiddenArgContexts) :
    Avoids bad (builder.observedOutputFieldArg hidden contexts) := by
  unfold TxBuilder.observedOutputFieldArg
  split
  · refine Avoids.bind (Avoids.okOr _ _) fun _ _ => ?_
    refine Avoids.bind (Avoids.okOr _ _) fun _ _ => ?_
    refine Avoids.bind (contractRefInApp_avoids _ _ _) fun _ _ => ?_
    refine Avoids.bind (actorRefInArtifact_avoids _ _) fun _ _ => ?_
    refine Avoids.bind (Avoids.rejectIf _ _) fun _ _ => ?_
    exact Avoids.bind (TxBuilder.runtimeStateValues_avoids hbad _ _ _ _) fun _ _ => Avoids.okOr _ _
  · exact Avoids.fail _

theorem hiddenArg_avoids (contractRef : ContractRef) (entry : EntryArtifact)
    (sourceState : BTreeMap String ArtifactValue) (templateSelectors : BTreeMap String String)
    (contexts : HiddenArgContexts) (hidden : HiddenParamArtifact) :
    Avoids bad (builder.hiddenArg contractRef entry sourceState templateSelectors contexts
      hidden) := by
  have htemplate := @hiddenTemplate_avoids bad _ builder.bundle contractRef.artifact hidden
    entry templateSelectors contexts
  unfold TxBuilder.hiddenArg
  dsimp only
  split
  · exact spawnOutputIndexArg_avoids _ _ _
  · refine Avoids.bind htemplate fun template _ => ?_
    exact Avoids.bind (prefixBytes_avoids hbad template) fun _ _ => Avoids.pure _
  · refine Avoids.bind htemplate fun template _ => ?_
    exact Avoids.bind (suffixBytes_avoids hbad template) fun _ _ => Avoids.pure _
  · exact Avoids.bind htemplate fun _ _ => Avoids.pure _
  · refine Avoids.bind htemplate fun template _ => ?_
    exact Avoids.bind (suffixLen_avoids hbad template) fun _ _ => Avoids.pure _
  · exact Avoids.bind htemplate fun _ _ => Avoids.pure _
  · refine Avoids.bind (hiddenActorSubject_avoids _) fun _ _ => ?_
    exact Avoids.bind (contractRefInArtifact_avoids _ _) fun _ _ => Avoids.pure _
  · refine Avoids.bind (hiddenActorSubject_avoids _) fun _ _ => ?_
    refine Avoids.bind (Avoids.okOr _ _) fun _ _ => ?_
    exact Avoids.bind (routeTemplateProofBytesForActor_avoids _ _ _) fun _ _ => Avoids.pure _
  · refine Avoids.bind (hiddenFamilySubject_avoids _) fun _ _ => ?_
    exact Avoids.bind (routeFamilyTableBytes_avoids _ _) fun _ _ => Avoids.pure _
  · refine Avoids.bind (hiddenFamilySubject_avoids _) fun _ _ => ?_
    refine Avoids.bind (Avoids.okOr _ _) fun _ _ => ?_
    exact Avoids.bind (routeTemplateProofBytes_avoids _ _ _) fun _ _ => Avoids.pure _
  · exact stateExpansionPreimageArg_avoids _ _ _ _ _
  · exact observedOutputFieldArg_avoids builder hbad _ _

/-! ## observations -/

theorem validateObservedActor_avoids (artifact : Artifact) (app observeName : String)
    (side : ObservedActorSideArtifact) (expected : ObservedActorArtifact) (foundActor : String) :
    Avoids bad (builder.validateObservedActor artifact app observeName side expected
      foundActor) := by
  unfold TxBuilder.validateObservedActor
  split
  · refine Avoids.bind (Avoids.okOr _ _) fun _ _ => ?_
    refine Avoids.bind (actorRefInArtifact_avoids _ _) fun _ _ => ?_
    refine Avoids.bind (Avoids.rejectIf _ _) fun _ _ => ?_
    refine Avoids.bind (Avoids.okOr _ _) fun _ _ => ?_
    exact Avoids.bind (Avoids.okOr _ _) fun _ _ => Avoids.rejectIf _ _
  · refine Avoids.bind (Avoids.rejectIf _ _) fun _ _ => ?_
    refine Avoids.bind (Avoids.rejectIf _ _) fun _ _ => ?_
    split_ifs
    · exact Avoids.bind (Avoids.okOr _ _) fun _ _ => Avoids.pure _
    · exact validateActorInterface_avoids _ _ _ _

theorem validateObservedContexts_avoids (artifact : Artifact) (actorName entryName : String)
    (entry : EntryArtifact) (observed : ResolvedObservations) :
    Avoids bad (builder.validateObservedContexts artifact actorName entryName entry observed) := by
  refine Avoids.bind (Avoids.forM fun _ _ => ?_) fun _ _ => Avoids.forM fun observe _ => ?_
  · exact Avoids.bind (Avoids.okOr _ _) fun _ _ => Avoids.pure _
  · refine Avoids.bind (Avoids.okOr _ _) fun context _ => ?_
    refine Avoids.bind (Avoids.okOr _ _) fun _ _ => Avoids.bind ?_ fun _ _ => ?_
    · refine Avoids.bind (Avoids.forM fun _ _ => Avoids.rejectIf _ _) fun _ _ => ?_
      refine Avoids.forM fun input _ => Avoids.bind (Avoids.okOr _ _) fun _ _ => ?_
      refine Avoids.bind (validateObservedActor_avoids builder hbad _ _ _ _ _ _) fun _ _ => ?_
      refine Avoids.bind (contractRefInApp_avoids _ _ _) fun _ _ => ?_
      exact Avoids.bind (TxBuilder.actorScript_avoids hbad _ _) fun _ _ => Avoids.rejectIf _ _
    · refine Avoids.bind (Avoids.forM fun _ _ => Avoids.rejectIf _ _) fun _ _ => ?_
      refine Avoids.forM fun output _ => Avoids.bind (Avoids.okOr _ _) fun _ _ => ?_
      refine Avoids.bind (validateObservedActor_avoids builder hbad _ _ _ _ _ _) fun _ _ => ?_
      refine Avoids.bind (contractRefInApp_avoids _ _ _) fun _ _ => ?_
      exact Avoids.bind (TxBuilder.redeemScript_avoids hbad _ _) fun _ _ => Avoids.pure _

omit hbad in
theorem mergeObservedApp_avoids (observe : String) (app : Option String) (candidate : String) :
    Avoids bad (mergeObservedApp observe app candidate) := by
  unfold mergeObservedApp
  split
  · exact Avoids.bind (Avoids.rejectIf _ _) fun _ _ => Avoids.pure _
  · exact Avoids.pure _

omit hbad in
theorem resolveObservation_avoids {context : ResolveContext} {unsigned : MutableTransaction}
    (hlength : unsigned.tx.outputs.length = context.outputs.length) (input : ResolveActorInput)
    (observe : ObserveArtifact) (covenantId : Digest) :
    Avoids bad (resolveObservation context unsigned input observe covenantId) := by
  refine Avoids.bind (Avoids.rejectIf _ _) fun _ _ => ?_
  refine Avoids.bind (Avoids.rejectIf _ _) fun _ _ => ?_
  refine Avoids.bind (Avoids.foldlM fun state item hitem => ?_) fun _ _ => ?_
  · obtain ⟨pair, hpair, hindex⟩ := List.mem_map.mp (List.of_mem_zip hitem).2
    have hat := List.mem_zipIdx_iff_getElem?.mp (List.mem_filter.mp hpair).1
    rw [hindex] at hat
    refine Avoids.bind (Avoids.of_eq_some hat) fun candidate _ => ?_
    cases candidate with
    | ordinary source => exact Avoids.fail _
    | actor source => exact Avoids.bind (mergeObservedApp_avoids _ _ _) fun _ _ => Avoids.pure _
  · refine Avoids.bind (Avoids.foldlM fun state item hitem => ?_) fun _ _ => ?_
    · obtain ⟨pair, hpair, hindex⟩ := List.mem_map.mp (List.of_mem_zip hitem).2
      have hat := List.mem_zipIdx_iff_getElem?.mp (List.mem_filter.mp hpair).1
      rw [hindex] at hat
      have hi := (List.getElem?_eq_some_iff.mp hat).1
      refine Avoids.bind (Avoids.of_eq_some (List.getElem?_eq_getElem (hlength ▸ hi)))
        fun candidate _ => ?_
      cases candidate.owner with
      | spk script => exact Avoids.fail _
      | actor actor => exact Avoids.bind (mergeObservedApp_avoids _ _ _) fun _ _ => Avoids.pure _
    · exact Avoids.bind (Avoids.okOr _ _) fun _ _ => Avoids.pure _

omit hbad in
theorem observedCovenantId_avoids (input : ResolveActorInput) (args : ResolvedEntryArgs)
    (observe : ObserveArtifact) : Avoids bad (observedCovenantId input args observe) := by
  refine Avoids.bind ?_ fun value _ => ?_
  · unfold covenantIdValue
    split <;> exact Avoids.okOr _ _
  · split
    · exact Avoids.okOr _ _
    · exact Avoids.fail _

theorem resolveActorObservations_avoids {context : ResolveContext} {unsigned : MutableTransaction}
    (hlength : unsigned.tx.outputs.length = context.outputs.length) {input : ResolveActorInput}
    {args : ResolvedEntryArgs} (hargs : input.args = some args) :
    Avoids bad (builder.resolveActorObservations context unsigned input) := by
  refine Avoids.bind (Avoids.of_eq_some hargs) fun _ _ => ?_
  refine Avoids.bind (Avoids.foldlM fun _ observe _ => ?_) fun _ _ => ?_
  · refine Avoids.bind (observedCovenantId_avoids _ _ _) fun _ _ => ?_
    exact Avoids.bind (resolveObservation_avoids hlength _ _ _) fun _ _ => Avoids.pure _
  · refine Avoids.bind (validateObservedContexts_avoids builder hbad _ _ _ _ _) fun _ _ => ?_
    exact Avoids.pure _

/-! ## spawns -/

omit hbad in
theorem spawnTargetMatches_avoids {input : ResolveActorInput} {args : ResolvedEntryArgs}
    (hargs : input.args = some args) (spawn : SpawnArtifact) (output : SpawnOutputArtifact)
    (actor : ContractRef) : Avoids bad (builder.spawnTargetMatches input spawn output actor) := by
  unfold TxBuilder.spawnTargetMatches
  split
  · exact Avoids.bind (observedContractRef_avoids _ _ _ _) fun _ _ => Avoids.pure _
  · split_ifs
    · exact Avoids.bind (Avoids.okOr _ _) fun _ _ => Avoids.pure _
    · refine Avoids.bind ?_ fun _ _ => Avoids.bind ?_ fun _ _ => Avoids.pure _
      · refine Avoids.bind (Avoids.of_eq_some hargs) fun _ _ => ?_
        split
        · exact Avoids.bind (Avoids.rejectIf _ _) fun _ _ => Avoids.pure _
        · exact Avoids.fail _
      · have hhandle : Avoids bad
            (actorTypeHandleInArtifact actor.artifact actor.name output.state) := by
          refine Avoids.bind (Avoids.okOr _ _) fun _ _ => ?_
          refine Avoids.bind (Avoids.okOr _ _) fun _ _ => ?_
          exact Avoids.bind (Avoids.rejectIf _ _) fun _ _ => Avoids.pure _
        unfold exposedHandle
        split
        · exact Avoids.ok _
        · exact Avoids.fail _
        next e _ heq =>
          rw [heq] at hhandle
          exact fun message h => hhandle message (by rw [Except.error.inj h])

omit hbad in
theorem resolveClause_avoids {context : ResolveContext} {input : ResolveActorInput}
    {args : ResolvedEntryArgs} (hargs : input.args = some args) (inputIndex : Nat)
    (state : ResolvedSpawnActors × Option Nat) (spawn : SpawnArtifact) :
    Avoids bad (builder.resolveClause context inputIndex input state spawn) := by
  refine Avoids.bind (Avoids.okOr _ _) fun authorizingInput _ => ?_
  refine Avoids.bind (Avoids.okOr _ _) fun group hgroup => ?_
  have hnamed := okOr_eq_ok.mp hgroup
  unfold namedGenesisGroup at hnamed
  dsimp only at hnamed
  split_ifs at hnamed with hempty
  obtain rfl := Option.some.inj hnamed
  refine Avoids.bind (Avoids.of_eq_some (List.head?_eq_some_head hempty)) fun _ _ => ?_
  refine Avoids.bind (Avoids.rejectIf _ _) fun _ _ => Avoids.bind ?_ fun _ _ => Avoids.pure _
  refine Avoids.bind (Avoids.rejectIf _ _) fun _ _ => Avoids.foldlM fun _ item hitem => ?_
  obtain ⟨pair, hpair, hindex⟩ := List.mem_map.mp (List.of_mem_zip hitem).2
  have hat := List.mem_zipIdx_iff_getElem?.mp (List.mem_filter.mp hpair).1
  rw [hindex] at hat
  refine Avoids.bind (Avoids.of_eq_some hat) fun resolvedOutput _ => ?_
  cases resolvedOutput.owner with
  | spk script => exact Avoids.fail _
  | actor actor =>
    refine Avoids.bind (spawnTargetMatches_avoids builder hargs _ _ _) fun _ _ => ?_
    exact Avoids.bind (Avoids.rejectIf _ _) fun _ _ => Avoids.pure _

end

/-! ## user arguments -/

theorem lowerArgValues_avoids (actorName entryName : String) (silEntry : SilEntryArtifact)
    (artifactEntry : EntryArtifact) (userArgs : List ArgValue) :
    Avoids bad (lowerArgValues actorName entryName silEntry artifactEntry userArgs) := by
  refine Avoids.foldlM fun state item _ => ?_
  unfold lowerArgValue
  split
  · exact Avoids.pure _
  · refine Avoids.bind ?_ fun _ _ => Avoids.pure _
    refine Avoids.bind (Avoids.okOr _ _) fun _ _ => ?_
    refine Avoids.bind (Avoids.okOr _ _) fun _ _ => ?_
    exact Avoids.bind (Avoids.okOr _ _) fun _ _ => Avoids.pure _

theorem resolveContextArgs_avoids (context : ResolveContext) (unsigned : MutableTransaction) :
    Avoids bad (resolveContextArgs context unsigned) := by
  refine Avoids.bind (Avoids.mapM fun item _ => ?_) fun _ _ => Avoids.pure _
  unfold resolveInputArgs
  split
  · exact Avoids.pure _
  · refine Avoids.bind ?_ fun _ _ => Avoids.pure _
    refine Avoids.bind (Avoids.okOr _ _) fun _ _ => Avoids.bind ?_ fun _ _ => ?_
    · unfold sourceArgs
      split
      · exact Avoids.pure _
      · exact Avoids.orFail _ _
    · refine Avoids.bind (Avoids.rejectIf _ _) fun _ _ => ?_
      exact lowerArgValues_avoids _ _ _ _ _

/-! ## input counts -/

theorem validateLeaderActorInputCounts_avoids (context : ResolveContext) :
    Avoids bad (validateLeaderActorInputCounts context) := by
  refine Avoids.forM fun item _ => ?_
  unfold validateLeaderActorInputCount
  split
  · exact Avoids.pure _
  · split_ifs
    · exact Avoids.pure _
    · exact Avoids.pure _
    · split
      · exact Avoids.pure _
      · unfold validateInputCount
        refine Avoids.bind (Avoids.okOr _ _) fun _ _ => ?_
        dsimp only
        split_ifs
        · exact Avoids.fail _
        · exact Avoids.fail _
        · exact Avoids.pure _

/-! ## the unsigned transaction -/

theorem unsignedTransaction_avoids {crates : RuntimeCrates}
    (hbad : ∀ message ∈ TxBuilder.artifactPanics, ¬ bad message) (bound : ResolveContext) :
    Avoids bad (TxBuilder.unsignedTransaction crates bound) := by
  refine Avoids.bind (Avoids.mapM fun ⟨input, i⟩ _ => ?_) fun _ _ => ?_
  · cases input with
    | ordinary input => exact Avoids.pure _
    | actor input =>
      refine Avoids.bind (Avoids.rejectIf _ _) fun _ _ => ?_
      refine Avoids.bind (TxBuilder.actorScript_avoids hbad _ _) fun _ _ => ?_
      exact Avoids.bind (Avoids.rejectIf _ _) fun _ _ => Avoids.pure _
  · refine Avoids.bind (Avoids.mapM fun output _ => ?_) fun _ _ => Avoids.pure _
    refine Avoids.bind ?_ fun _ _ => Avoids.pure _
    unfold TxBuilder.outputScript
    split
    · exact TxBuilder.actorScript_avoids hbad _ _
    · exact Avoids.pure _

/-! ## execution -/

/-- committing a budget keeps the number of inputs -/
theorem commitComputeBudgets_avoids {crates : TransactionCrates} {items : List (UInt64 × Nat)}
    {inputs : List TransactionInput} (h : ∀ item ∈ items, item.2 < inputs.length) :
    Avoids bad (items.foldlM (commitComputeBudget crates) inputs) := by
  induction items generalizing inputs with
  | nil => exact Avoids.pure _
  | cons item items ih =>
    rw [List.foldlM_cons]
    refine Avoids.bind ?_ fun inputs' hstep => ih fun other hother => ?_
    · refine Avoids.bind (Avoids.okOr _ _) fun _ _ => ?_
      have hi := h item List.mem_cons_self
      exact Avoids.bind (Avoids.of_eq_some (List.getElem?_eq_getElem hi)) fun _ _ => Avoids.pure _
    · rw [← (commitComputeBudget_ok hstep).length_eq]
      exact h other (List.mem_cons_of_mem _ hother)

theorem executeTransactionWithCovenants_avoids {crates : TransactionCrates} (tx : Transaction)
    (entries : List UtxoEntry) : Avoids bad (executeTransactionWithCovenants crates tx entries) := by
  refine Avoids.bind (Avoids.rejectIf _ _) fun _ _ => ?_
  refine Avoids.bind (Avoids.rejectIf _ _) fun _ hentries => ?_
  rw [rejectIf_eq_ok, not_not] at hentries
  refine Avoids.bind (Avoids.orFail _ _) fun _ _ => ?_
  refine Avoids.bind (Avoids.mapM fun i hi => ?_) fun usedScriptUnits hused => ?_
  · have hlt := List.mem_range.mp hi
    refine Avoids.bind (Avoids.of_eq_some (List.getElem?_eq_getElem hlt)) fun _ _ => ?_
    refine Avoids.bind (Avoids.of_eq_some (List.getElem?_eq_getElem (hentries ▸ hlt))) fun _ _ => ?_
    exact Avoids.orFail _ _
  · have hlength : usedScriptUnits.length = tx.inputs.length := by
      rw [← (mapM_ok hused).length_eq, List.length_range]
    refine Avoids.bind ?_ fun _ _ => ?_
    · have hitems : ∀ item ∈ usedScriptUnits.zipIdx, item.2 < tx.inputs.length := by
        intro item hitem
        have hat := List.mem_zipIdx_iff_getElem?.mp hitem
        rw [← hlength]
        exact (List.getElem?_eq_some_iff.mp hat).1
      exact commitComputeBudgets_avoids hitems
    · refine Avoids.bind (Avoids.rejectIf _ _) fun _ _ => ?_
      exact Avoids.bind (Avoids.rejectIf _ _) fun _ _ => Avoids.pure _

/-! ## one pass after another -/

/-- what holds of all actor inputs of a context -/
def ResolveContext.AllActors (context : ResolveContext) (p : ResolveActorInput → Prop) : Prop :=
  ∀ input, ResolveInput.actor input ∈ context.inputs → p input

section
variable {crates : TransactionCrates} {builder : TxBuilder crates.toRuntimeCrates}
  {unsigned : MutableTransaction} {context context' : ResolveContext}

theorem resolveContextArgs_fills (h : resolveContextArgs context unsigned = .ok context') :
    context'.AllActors fun input => ∃ args, input.args = some args := by
  obtain ⟨inputs, hinputs, h⟩ := bind_eq_ok.mp h
  obtain rfl := pure_eq_ok.mp h
  intro input hmem
  obtain ⟨⟨source, i⟩, -, hstep⟩ := mem_of_mapM_ok hinputs hmem
  cases source with
  | ordinary source => cases pure_eq_ok.mp hstep
  | actor source =>
    obtain ⟨args, -, hstep⟩ := bind_eq_ok.mp hstep
    obtain rfl := ResolveInput.actor.inj (pure_eq_ok.mp hstep)
    exact ⟨args, rfl⟩

theorem resolveContextObservations_fills
    (hargs : context.AllActors fun input => ∃ args, input.args = some args)
    (h : builder.resolveContextObservations context unsigned = .ok context') :
    context'.AllActors fun input => ∃ args observations, input.args = some args ∧
      input.observations = some observations := by
  obtain ⟨inputs, hinputs, h⟩ := bind_eq_ok.mp h
  obtain rfl := pure_eq_ok.mp h
  intro input hmem
  obtain ⟨source, hsource, hstep⟩ := mem_of_mapM_ok hinputs hmem
  cases source with
  | ordinary source => cases pure_eq_ok.mp hstep
  | actor source =>
    obtain ⟨observations, -, hstep⟩ := bind_eq_ok.mp hstep
    obtain rfl := ResolveInput.actor.inj (pure_eq_ok.mp hstep)
    obtain ⟨args, hargs⟩ := hargs source hsource
    exact ⟨args, observations, hargs, rfl⟩

theorem resolveContextSpawns_fills
    (hobservations : context.AllActors fun input => ∃ args observations, input.args = some args ∧
      input.observations = some observations)
    (h : builder.resolveContextSpawns context = .ok context') :
    context'.AllActors fun input => ∃ args observations spawnedActors, input.args = some args ∧
      input.observations = some observations ∧ input.spawnedActors = some spawnedActors := by
  obtain ⟨inputs, hinputs, h⟩ := bind_eq_ok.mp h
  obtain rfl := pure_eq_ok.mp h
  intro input hmem
  obtain ⟨⟨source, i⟩, hsource, hstep⟩ := mem_of_mapM_ok hinputs hmem
  cases source with
  | ordinary source => cases pure_eq_ok.mp hstep
  | actor source =>
    obtain ⟨⟨spawnedActors, last⟩, -, hstep⟩ := bind_eq_ok.mp hstep
    obtain rfl := ResolveInput.actor.inj (pure_eq_ok.mp hstep)
    have hat := List.mem_zipIdx_iff_getElem?.mp hsource
    obtain ⟨args, observations, hargs, hkept⟩ :=
      hobservations source (List.mem_of_getElem? hat)
    exact ⟨args, observations, spawnedActors, hargs, hkept, rfl⟩

theorem resolveContextHiddenArgs_fills
    (h : builder.resolveContextHiddenArgs context = .ok context') :
    context'.AllActors fun input => ∃ args hiddenArgs, input.args = some args ∧
      input.hiddenArgs = some hiddenArgs := by
  obtain ⟨inputs, hinputs, h⟩ := bind_eq_ok.mp h
  obtain rfl := pure_eq_ok.mp h
  intro input hmem
  obtain ⟨source, -, hstep⟩ := mem_of_mapM_ok hinputs hmem
  cases source with
  | ordinary source => cases pure_eq_ok.mp hstep
  | actor source =>
    obtain ⟨args, hargs, hstep⟩ := bind_eq_ok.mp hstep
    obtain ⟨_, -, hstep⟩ := bind_eq_ok.mp hstep
    obtain ⟨_, -, hstep⟩ := bind_eq_ok.mp hstep
    obtain ⟨hiddenArgs, -, hstep⟩ := bind_eq_ok.mp hstep
    obtain rfl := ResolveInput.actor.inj (pure_eq_ok.mp hstep)
    exact ⟨args, hiddenArgs, expect_eq_ok.mp hargs, rfl⟩

/-- what is expected between the passes was filled in -/
theorem build_avoids (hbad : ∀ message ∈ TxBuilder.artifactPanics, ¬ bad message)
    (source : TxContext) : Avoids bad (builder.build crates source) := by
  refine Avoids.bind (TxBuilder.bindContext_avoids hbad source) fun bound hbound => ?_
  refine Avoids.bind (unsignedTransaction_avoids hbad bound) fun unsigned hunsigned => ?_
  have hframe := unsignedTransaction_ok hbound hunsigned
  refine Avoids.bind (validateLeaderActorInputCounts_avoids bound) fun _ _ => ?_
  refine Avoids.bind (resolveContextArgs_avoids bound unsigned) fun withArgs hargs => ?_
  have hwithArgs := resolveContextArgs_fills hargs
  have houtputs : unsigned.tx.outputs.length = withArgs.outputs.length := by
    obtain ⟨boundOutputs, groups, stateContext, hphases⟩ := TxBuilder.bindContext_phases hbound
    have hkept := congrArg ResolveContext.outputs (resolveContextArgs_ok hargs).1
    have hsame : withArgs.outputs = bound.outputs := hkept
    rw [hframe.length_outputs, hsame, hphases.length_outputs]
  refine Avoids.bind ?_ fun withObservations hobserve => ?_
  · refine Avoids.bind (Avoids.mapM fun input hinput => ?_) fun _ _ => Avoids.pure _
    cases input with
    | ordinary input => exact Avoids.pure _
    | actor input =>
      obtain ⟨args, hsome⟩ := hwithArgs input hinput
      refine Avoids.bind (resolveActorObservations_avoids builder hbad houtputs hsome) fun _ _ => ?_
      exact Avoids.pure _
  have hwithObservations := resolveContextObservations_fills hwithArgs hobserve
  refine Avoids.bind ?_ fun withSpawns hspawn => ?_
  · refine Avoids.bind (Avoids.mapM fun ⟨input, i⟩ hinput => ?_) fun _ _ => Avoids.pure _
    cases input with
    | ordinary input => exact Avoids.pure _
    | actor input =>
      have hat := List.mem_zipIdx_iff_getElem?.mp hinput
      obtain ⟨args, observations, hsome, -⟩ := hwithObservations input (List.mem_of_getElem? hat)
      refine Avoids.bind (Avoids.foldlM fun state spawn _ => ?_) fun _ _ => Avoids.pure _
      exact resolveClause_avoids builder hsome i state spawn
  have hwithSpawns := resolveContextSpawns_fills hwithObservations hspawn
  refine Avoids.bind ?_ fun final hhidden => ?_
  · refine Avoids.bind (Avoids.mapM fun input hinput => ?_) fun _ _ => Avoids.pure _
    cases input with
    | ordinary input => exact Avoids.pure _
    | actor input =>
      obtain ⟨args, observations, spawned, hargs, hobserved, hspawned⟩ := hwithSpawns input hinput
      refine Avoids.bind (Avoids.of_eq_some hargs) fun _ _ => ?_
      refine Avoids.bind (Avoids.of_eq_some hobserved) fun _ _ => ?_
      refine Avoids.bind (Avoids.of_eq_some hspawned) fun _ _ => ?_
      refine Avoids.bind (Avoids.mapM fun hidden _ => ?_) fun _ _ => Avoids.pure _
      exact hiddenArg_avoids builder hbad _ _ _ _ _ hidden
  have hfinal := resolveContextHiddenArgs_fills hhidden
  refine Avoids.bind (Avoids.mapM fun ⟨input, i⟩ hinput => ?_) fun scripts _ => ?_
  · cases input with
    | ordinary input =>
      unfold inputSignatureScript
      dsimp only
      split
      · exact Avoids.pure _
      · exact Avoids.orFail _ _
    | actor input =>
      have hat := List.mem_zipIdx_iff_getElem?.mp hinput
      obtain ⟨args, hiddenArgs, hargs, hhiddenArgs⟩ := hfinal input (List.mem_of_getElem? hat)
      refine Avoids.bind (Avoids.of_eq_some hargs) fun _ _ => ?_
      refine Avoids.bind (Avoids.of_eq_some hhiddenArgs) fun _ _ => ?_
      refine Avoids.bind (Avoids.orFail _ _) fun _ _ => ?_
      exact Avoids.bind (TxBuilder.redeemScript_avoids hbad _ _) fun _ _ => Avoids.orFail _ _
  · refine Avoids.bind (Avoids.mapM fun entry hentry => ?_) fun entries _ => ?_
    · rw [hframe.entries_eq] at hentry
      obtain ⟨input, -, rfl⟩ := List.mem_map.mp hentry
      exact Avoids.ok _
    · exact executeTransactionWithCovenants_avoids _ _

end

end

/-- Whenever a transaction is built, its inputs and outputs are those of the context, position by
position: inputs with their outpoints and sequences, outputs with their values, with the raw script
or that of their actor and resolved state, and with their covenant bindings, where the id of a
genesis group is that of the group as the transaction has it.  It differs from the unsigned
transaction, which all callbacks see, in signature scripts and compute budgets only.  Each input is
signed for its own entry and position.  No pass fails to find what an earlier one filled in. -/
theorem build_corresponds (crates : TransactionCrates) (builder : TxBuilder crates.toRuntimeCrates)
    (context : TxContext) :
    (∀ tx, builder.build crates context = .ok tx →
      ∃ bound unsigned stateContext, builder.bindContext context = .ok bound ∧
        Built builder context bound unsigned stateContext tx) ∧
    ∀ message ∈ passPanics, builder.build crates context ≠ .error (.panic message) := by
  refine ⟨fun tx h => ?_, fun message hmem h => ?_⟩
  · exact build_built h
  · have hbad : ∀ panic ∈ TxBuilder.artifactPanics, ¬ panic ∈ passPanics := by decide
    exact build_avoids hbad context message h hmem

/-! ## a sample -/

/-- crates that push one byte for every argument -/
def hiveTransactionCrates : TransactionCrates :=
  { hiveRuntimeCrates with
    encodeEntrySigScript := fun _ _ _ _ _ args => .ok (args.map fun _ => 81)
    payToScriptHashSignatureScript := fun redeemScript script => .ok (script ++ redeemScript)
    covenantsContext := fun _ _ => .ok ⟨⟩
    executeInput := fun _ _ _ _ _ => .ok 7
    coveringComputeBudget := fun scriptUnits => some scriptUnits.toUInt16
    nonContextualMasses := fun _ => (1, 1)
    blockMassLimits := (2, 2) }

/-- the drone is signed with the kind of its brood and four hidden arguments -/
example : ((TxBuilder.build hiveTransactionCrates hiveBuilder broodContext).toOption.map
    fun tx : Transaction => tx.inputs.map TransactionInput.signatureScript) =
      some [[81, 81, 81, 81, 81, 1, 12, 1, 0, 9]] := by decide +kernel

end Argent.Runtime
