import Argent.Artifacts.Handles
import Argent.Runtime.Bundle
import Argent.Runtime.Context

/-!
# Hidden templates

The templates that a builder passes to a contract as hidden witnesses, and the handles that the
contract compares them with.

* `ArtifactBundle.hiddenTemplate`      the template of a hidden parameter;
* `DynamicWitness`      a hidden parameter that stands for an actor known by its handle only;
* `hiddenTemplate_matches_iff`      **the template passed for an actor hashes to its handle when it is
                                    taken from the handle, or when nothing is fixed in the handle**.
-/

set_option linter.unusedSectionVars false

namespace Argent.Runtime
open Argent.Fallible Argent.Sil Argent.Artifacts

/-! ## templates -/

inductive TemplateRef where
  | sil (contract : SilContractArtifact)
  | actorType (template : ActorTemplateArtifact)

namespace TemplateRef
variable (crates : Crates)

/-- the outer parts of a contract, which were verified when its artifact was attached -/
def silParts (contract : SilContractArtifact) : BuilderResult (Bytes × Bytes) := do
  let (leading, _, trailing) ← expect
    (crates.scriptParts contract.compiled contract.compiled.bytecode)
    "Sil ABI state span was verified when the artifact was attached"
  pure (leading, trailing)

def prefixBytes : TemplateRef → BuilderResult Bytes
  | .sil contract => do
    let parts ← silParts crates contract
    pure parts.1
  | .actorType template => pure template.leading

def suffixBytes : TemplateRef → BuilderResult Bytes
  | .sil contract => do
    let parts ← silParts crates contract
    pure parts.2
  | .actorType template => pure template.trailing

def hashBytes : TemplateRef → Bytes
  | .sil contract => contract.compiled.templateHash.bytes
  | .actorType template => template.hash.bytes

def prefixLen : TemplateRef → Nat
  | .sil contract => contract.compiled.stateSpan.offset
  | .actorType template => template.leading.length

def suffixLen : TemplateRef → BuilderResult Nat
  | .sil contract => do
    let parts ← silParts crates contract
    pure parts.2.length
  | .actorType template => pure template.trailing.length

end TemplateRef

/-! ## what hidden arguments are resolved against -/

structure ObservedActorContext where
  actor : String
  state : BTreeMap String ArtifactValue

/-- an observed input, with the output that it spends -/
structure ObservedInput extends ObservedActorContext where
  utxo : UtxoEntry

structure ObservedCovenantContext where
  app : String
  inputs : BTreeMap String ObservedInput
  outputs : BTreeMap String ObservedActorContext

structure SpawnedActorContext where
  app : String
  actor : String
  outputIndex : Nat

/-- spawned actors by spawn and handle -/
abbrev ResolvedSpawnActors := BTreeMap (String ×ₗ String) SpawnedActorContext

abbrev ResolvedObservations := BTreeMap String ObservedCovenantContext

structure HiddenArgContexts where
  observed : Option ResolvedObservations
  spawned : Option ResolvedSpawnActors

/-! ## actors of other apps -/

def findInterface (interfaces : List ActorInterfaceArtifact) (app actor : String) :
    Option ActorInterfaceArtifact :=
  interfaces.find? fun interface => interface.app == app && interface.actor == actor

namespace ArtifactBundle
variable {crates : Crates} (bundle : ArtifactBundle crates)

def validateActorInterface (observingArtifact : Artifact) (app actor : String) :
    BuilderResult PUnit := do
  let artifact ← bundle.app app
  let observingApp := artifactAppAlias observingArtifact.app
  let expected ← okOr (findInterface observingArtifact.argent.interfaces.imports artifact.app actor)
    (.error (.missingInterface observingApp "import" actor))
  let found ← okOr (findInterface artifact.argent.interfaces.exports artifact.app actor)
    (.error (.missingInterface app "export" actor))
  rejectIf (expected.fingerprintHex ≠ found.fingerprintHex)
    (.error (.interfaceMismatch app actor expected.fingerprintHex found.fingerprintHex))

def contractRefInApp (app name : String) : BuilderResult ContractRef := do
  let artifact ← bundle.app app
  contractRefInArtifact artifact name

def observedContractRef (observingArtifact : Artifact) (app contract : String) :
    BuilderResult ContractRef := do
  let appAlias := artifactAppAlias app
  bundle.validateActorInterface observingArtifact appAlias contract
  bundle.contractRefInApp appAlias contract

/-- a shared actor template of the primary or of an imported app -/
def actorSubjectContractRef (primaryArtifact : Artifact) (actor : String) :
    BuilderResult ContractRef :=
  if (primaryArtifact.silAbi.contract actor).isSome then
    contractRefInArtifact primaryArtifact actor
  else do
    let (app, contract) ← okOr (splitOnce actor) (.error (.unknownActor actor))
    bundle.observedContractRef primaryArtifact app contract

end ArtifactBundle

/-! ## observed actors and selectors -/

def observe (actorName entryName : String) (entry : EntryArtifact) (observeName : String) :
    BuilderResult ObserveArtifact :=
  okOr (entry.observes.find? fun observe => observe.name == observeName)
    (.error (.unknownObserve actorName entryName observeName))

def observedActor (entry : EntryArtifact) (observeName : String) (side : ObservedActorSideArtifact)
    (handle : String) : BuilderResult ObservedActorArtifact := do
  let observe ← observe entry.abi.contract entry.name entry observeName
  let actors := match side with
    | .input => observe.inputs
    | .output => observe.outputs
  okOr (actors.find? fun actor => actor.name == handle)
    (.error (.missingObservedActor observeName side handle))

def spawnOutput (entry : EntryArtifact) (spawn handle : String) : Option SpawnOutputArtifact :=
  (entry.spawns.find? fun candidate => candidate.name == spawn).bind fun spawn =>
    spawn.outputs.find? fun output => output.name == handle

/-- the actor chosen for a selector, which is a variant of it and no other than a fixed one -/
def selectedActor (entry : EntryArtifact) (templateSelectors : BTreeMap String String)
    (selectorName : String) : BuilderResult String := do
  let selector ← okOr (entry.templateSelectors.find? fun candidate => candidate.name == selectorName)
    (.error (.missingTemplateSelectorChoice selectorName))
  let selected ← match templateSelectors.get selectorName, selector.fixedActor with
    | some selected, some fixed => do
      rejectIf (selected ≠ fixed) (.error (.invalidTemplateSelectorChoice selector.name selected))
      pure selected
    | some selected, none => pure selected
    | none, some fixed => pure fixed
    | none, none => fail (.missingTemplateSelectorChoice selectorName)
  rejectIf (selected ∉ selector.variants)
    (.error (.invalidTemplateSelectorChoice selector.name selected))
  pure selected

/-- the actor that a context holds on one side under a handle -/
def ObservedCovenantContext.actorAt (context : ObservedCovenantContext)
    (side : ObservedActorSideArtifact) (handle : String) : Option String :=
  match side with
  | .input => (context.inputs.get handle).map (·.actor)
  | .output => (context.outputs.get handle).map (·.actor)

def HiddenArgContexts.observedAt (contexts : HiddenArgContexts) (observe : String) :
    Option ObservedCovenantContext :=
  contexts.observed.bind fun observed => observed.get observe

def HiddenArgContexts.spawnedAt (contexts : HiddenArgContexts) (spawn handle : String) :
    Option SpawnedActorContext :=
  contexts.spawned.bind fun spawned => spawned.get (toLex (spawn, handle))

def missingSpawnOutput (entry : EntryArtifact) (spawn handle : String) : BuilderError :=
  .missingSpawnOutput spawn handle (((spawnOutput entry spawn handle).map (·.groupIndex)).getD 0)

/-! ## the template of a hidden parameter -/

namespace ArtifactBundle
variable {crates : Crates} (bundle : ArtifactBundle crates)

def hiddenTemplateContractRef (primaryArtifact : Artifact) (hidden : HiddenParamArtifact)
    (entry : EntryArtifact) (templateSelectors : BTreeMap String String)
    (contexts : HiddenArgContexts) : BuilderResult ContractRef :=
  match hidden.subject with
  | .actor actor => bundle.actorSubjectContractRef primaryArtifact actor
  | .observedActor observe side handle actor =>
    match contexts.observedAt observe with
    | some context => bundle.contractRefInApp context.app ((context.actorAt side handle).getD actor)
    | none => do
      let observedActor ← observedActor entry observe side handle
      match observedActor.target with
      | .dynamicActor _ => fail (.missingObservedCovenant observe)
      | .staticActor app actor =>
        if app = primaryArtifact.app then contractRefInArtifact primaryArtifact actor
        else bundle.observedContractRef primaryArtifact app actor
  | .spawnActor spawn handle _ => do
    let context ← okOr (contexts.spawnedAt spawn handle)
      (.error (missingSpawnOutput entry spawn handle))
    bundle.contractRefInApp context.app context.actor
  | .templateSelector selector => do
    let actor ← selectedActor entry templateSelectors selector
    contractRefInArtifact primaryArtifact actor
  | .observedOutputField _ _ _ _ =>
    fail (.unexpectedHiddenSubject hidden.name "actor or template selector")
  | .routeFamily _ => fail (.unexpectedHiddenSubject hidden.name "actor or template selector")
  | .stateExpansion _ _ _ =>
    fail (.unexpectedHiddenSubject hidden.name "actor or template selector")

/-- the app that a static subject is imported from -/
def importedApp (entry : EntryArtifact) (hidden : HiddenParamArtifact) :
    BuilderResult (Option String) :=
  match hidden.subject with
  | .actor actor => pure ((splitOnce actor).map (·.1))
  | .observedActor observe side handle _ => do
    let observedActor ← observedActor entry observe side handle
    match observedActor.target with
    | .staticActor app _ => pure (some app)
    | .dynamicActor _ => pure none
  | _ => pure none

/-- the state under which a dynamic subject is seen -/
def openState (entry : EntryArtifact) (hidden : HiddenParamArtifact) :
    BuilderResult (Option String) :=
  match hidden.subject with
  | .observedActor observe side handle _ => do
    let observedActor ← observedActor entry observe side handle
    match observedActor.target with
    | .dynamicActor state => pure (some state)
    | .staticActor _ _ => pure none
  | .spawnActor spawn handle _ => pure ((spawnOutput entry spawn handle).map (·.state))
  | _ => pure none

/-- the template of an actor that is seen under an open state -/
def openTemplate (contractRef : ContractRef) (openState : String) : BuilderResult TemplateRef := do
  let actorRef ← actorRefInArtifact contractRef.artifact contractRef.name
  let actorState := actorRef.actor.state
  if contractRef.artifact.expandedBase actorState = none ∧ actorState = openState then
    pure (.sil contractRef.contract)
  else do
    let template ← okOr (TemplatePlanArtifact.receiptOf contractRef.artifact.argent.templatePlan
        contractRef.name)
      (.error (.missingActorTypeHandle contractRef.name openState))
    rejectIf (template.actorTypeHandle.state ≠ openState)
      (.error (.missingActorTypeHandle contractRef.name openState))
    pure (.actorType template.actorTypeHandle.template)

def hiddenTemplate (primaryArtifact : Artifact) (hidden : HiddenParamArtifact)
    (entry : EntryArtifact) (templateSelectors : BTreeMap String String)
    (contexts : HiddenArgContexts) : BuilderResult TemplateRef := do
  let contractRef ← bundle.hiddenTemplateContractRef primaryArtifact hidden entry templateSelectors
    contexts
  match ← importedApp entry hidden with
  | some importedApp =>
    if importedApp = primaryArtifact.app then pure (.sil contractRef.contract)
    else do
      let actorRef ← actorRefInArtifact contractRef.artifact contractRef.name
      let template ← okOr (TemplatePlanArtifact.receiptOf contractRef.artifact.argent.templatePlan
          contractRef.name)
        (.error (.missingActorTypeHandle contractRef.name actorRef.actor.state))
      pure (.actorType template.actorTypeHandle.template)
  | none =>
    match ← openState entry hidden with
    | none => pure (.sil contractRef.contract)
    | some openState => openTemplate contractRef openState

end ArtifactBundle

/-! ## actors known by their handles -/

/-- the hidden parameter stands for `actor` of `artifact`, which its entry knows by a handle for
the state `view` only -/
inductive DynamicWitness {crates : Crates} (bundle : ArtifactBundle crates)
    (hidden : HiddenParamArtifact) (entry : EntryArtifact) (contexts : HiddenArgContexts)
    (artifact : Artifact) (actor view : String) : Prop where
  | observed (observe : String) (side : ObservedActorSideArtifact) (handle declared : String)
      (target : ObservedActorArtifact) (context : ObservedCovenantContext)
      (subject_eq : hidden.subject = .observedActor observe side handle declared)
      (target_eq : observedActor entry observe side handle = .ok target)
      (view_eq : target.target = .dynamicActor view)
      (context_eq : contexts.observedAt observe = some context)
      (app_eq : bundle.app context.app = .ok artifact)
      (actor_eq : (context.actorAt side handle).getD declared = actor)
  | spawned (spawn handle declared : String) (output : SpawnOutputArtifact)
      (context : SpawnedActorContext)
      (subject_eq : hidden.subject = .spawnActor spawn handle declared)
      (output_eq : spawnOutput entry spawn handle = some output)
      (view_eq : output.state = view)
      (context_eq : contexts.spawnedAt spawn handle = some context)
      (app_eq : bundle.app context.app = .ok artifact)
      (actor_eq : context.actor = actor)

/-- a template is supplied whose outer parts hash to `handle` -/
def Supplies (crates : Crates) (supplied : BuilderResult TemplateRef) (handle : Bytes) : Prop :=
  ∃ template leading trailing, supplied = .ok template ∧
    template.prefixBytes crates = .ok leading ∧ template.suffixBytes crates = .ok trailing ∧
      (crates.templateHash leading trailing).bytes = handle

/-- the actor is seen under the base that its state expands, or its state is no expansion and no
field of it is fixed in its handle -/
def HandleServed (artifact : Artifact) (actor view : String) : Prop :=
  ∃ actorArtifact template, artifact.actorNamed actor = some actorArtifact ∧
    TemplatePlanArtifact.receiptOf artifact.argent.templatePlan actor = some template ∧
      (artifact.expandedBase actorArtifact.state = some view ∨
        (artifact.expandedBase actorArtifact.state = none ∧
          template.actorTypeHandle.contextFields = []))

/-- a state is written as nothing when it has no fields, and only then -/
def WritesFields (crates : Crates) : Prop :=
  ∀ abi state values script, crates.encodeRuntimeStateScript abi state values = .ok script →
    (script = [] ↔ state.fields = [])

/-- the template hash tells the template of each contract of the plan from its handle -/
def TellsApart (crates : Crates) (artifact : Artifact) : Prop :=
  ∀ template ∈ artifact.argent.templatePlan.templates, ∀ contract silPrefix silState silSuffix,
    artifact.silAbi.contract template.contract = some contract →
    crates.scriptParts contract.compiled contract.compiled.bytecode =
      some (silPrefix, silState, silSuffix) →
    crates.templateHash silPrefix silSuffix = crates.templateHash
      template.actorTypeHandle.template.leading template.actorTypeHandle.template.trailing →
    silPrefix = template.actorTypeHandle.template.leading

section
variable {crates : Crates} {bundle : ArtifactBundle crates} {primaryArtifact : Artifact}
  {hidden : HiddenParamArtifact} {entry : EntryArtifact}
  {templateSelectors : BTreeMap String String} {contexts : HiddenArgContexts}
  {artifact : Artifact} {actor view : String}

theorem DynamicWitness.consistent
    (h : DynamicWitness bundle hidden entry contexts artifact actor view) :
    Consistent crates artifact := by
  have hattached : ∀ app, bundle.app app = .ok artifact → Consistent crates artifact :=
    fun app happ => checkConsistency_ok (bundle.attached app artifact (okOr_eq_ok.mp happ)).consistent
  cases h with
  | observed _ _ _ _ _ _ _ _ _ _ happ _ => exact hattached _ happ
  | spawned _ _ _ _ _ _ _ _ _ happ _ => exact hattached _ happ

/-- which of the two kinds a dynamic witness is makes no difference to the template it is given -/
theorem hiddenTemplate_eq (h : DynamicWitness bundle hidden entry contexts artifact actor view) :
    bundle.hiddenTemplate primaryArtifact hidden entry templateSelectors contexts =
      contractRefInArtifact artifact actor >>= fun contractRef =>
        ArtifactBundle.openTemplate contractRef view := by
  have href : bundle.hiddenTemplateContractRef primaryArtifact hidden entry templateSelectors
      contexts = contractRefInArtifact artifact actor := by
    unfold ArtifactBundle.hiddenTemplateContractRef
    cases h with
    | observed _ _ _ _ _ _ hsubject _ _ hcontext happ hactor =>
      rw [hsubject]
      dsimp only
      rw [hcontext]
      unfold ArtifactBundle.contractRefInApp
      dsimp only
      rw [happ, hactor]
      rfl
    | spawned _ _ _ _ _ hsubject _ _ hcontext happ hactor =>
      rw [hsubject]
      dsimp only
      rw [hcontext]
      unfold ArtifactBundle.contractRefInApp
      dsimp only [okOr, bind, Except.bind]
      rw [happ, hactor]
  have hopen : ArtifactBundle.importedApp entry hidden = .ok none ∧
      ArtifactBundle.openState entry hidden = .ok (some view) := by
    unfold ArtifactBundle.importedApp ArtifactBundle.openState
    cases h with
    | observed _ _ _ _ _ _ hsubject htarget hview _ _ _ =>
      rw [hsubject]
      dsimp only
      rw [htarget]
      dsimp only [bind, Except.bind]
      rw [hview]
      exact ⟨rfl, rfl⟩
    | spawned _ _ _ _ _ hsubject houtput hview _ _ _ =>
      rw [hsubject]
      dsimp only
      rw [houtput, Option.map_some, hview]
      exact ⟨rfl, rfl⟩
  unfold ArtifactBundle.hiddenTemplate
  rw [href, hopen.1, hopen.2]
  rfl

end

/-- what is known of an actor for which a handle was returned -/
structure HandleFound (crates : Crates) (artifact : Artifact) (actor view : String)
    (handle : Bytes) (actorArtifact : ActorArtifact) (template : TemplateReceiptArtifact)
    (contract : SilContractArtifact) (silPrefix silState : Bytes) : Prop where
  actor_eq : artifact.actorNamed actor = some actorArtifact
  receipt_eq : TemplatePlanArtifact.receiptOf artifact.argent.templatePlan actor = some template
  contract_eq : artifact.silAbi.contract actor = some contract
  own_contract : artifact.silAbi.contract template.contract = some contract
  state_eq : template.actorTypeHandle.state =
    (artifact.expandedBase actorArtifact.state).getD actorArtifact.state
  view_eq : view = (artifact.expandedBase actorArtifact.state).getD actorArtifact.state ∨
    view = actorArtifact.state
  handle_eq : handle = (crates.templateHash template.actorTypeHandle.template.leading
    template.actorTypeHandle.template.trailing).bytes
  parts_eq : crates.scriptParts contract.compiled contract.compiled.bytecode =
    some (silPrefix, silState, template.actorTypeHandle.template.trailing)
  context_iff : WritesFields crates →
    (silPrefix = template.actorTypeHandle.template.leading ↔
      template.actorTypeHandle.contextFields = [])

theorem handleFound {crates : Crates} {artifact : Artifact} {actor view : String} {handle : Bytes}
    (hconsistent : Consistent crates artifact)
    (h : actorTypeHandleInArtifact artifact actor view = .ok handle) :
    ∃ actorArtifact template contract silPrefix silState, HandleFound crates artifact actor view
      handle actorArtifact template contract silPrefix silState := by
  obtain ⟨actorArtifact, hactor, h⟩ := bind_eq_ok.mp h
  obtain ⟨template, hreceipt, h⟩ := bind_eq_ok.mp h
  obtain ⟨hview, h⟩ := check_eq_ok.mp h
  rw [okOr_eq_ok] at hactor hreceipt
  rw [rejectIf_eq_ok, not_or, not_not, Bool.not_eq_false, Bool.or_eq_true, beq_iff_eq,
    beq_iff_eq] at hview
  obtain ⟨index, hplan⟩ := checkConsistency_checked hconsistent.plan
  have hmem := List.mem_of_find?_eq_some hreceipt
  have hname : template.actor = actor := by simpa using List.find?_some hreceipt
  obtain ⟨contract, hcontract, hverify⟩ := hplan.handle_ok template hmem
  obtain ⟨_, _, silPrefix, silState, context, values, hchecked⟩ := verifyActorTypeHandle_ok hverify
  have hown : artifact.silAbi.contract actor = some contract := by
    rw [← hname, (checkTemplate_ok (hplan.template_ok template hmem)).1]
    exact hcontract
  refine ⟨actorArtifact, template, contract, silPrefix, silState,
    { actor_eq := hactor
      receipt_eq := hreceipt
      contract_eq := hown
      own_contract := hcontract
      state_eq := hview.1
      view_eq := hview.2
      handle_eq := ?_
      parts_eq := hchecked.parts_eq
      context_iff := fun hwrites => ?_ }⟩
  · rw [← hchecked.hash_eq]
    exact (pure_eq_ok.mp h).symm
  · have hfields : leadingFields contract template = [] ↔
        template.actorTypeHandle.contextFields = [] := by
      rw [← hchecked.leading_names, List.map_eq_nil_iff]
    have hcontext := hwrites _ _ _ _ hchecked.encoded
    rw [hchecked.prefix_eq, List.self_eq_append_right, hcontext, ← hfields]

section
variable {crates : Crates} {artifact : Artifact} {actor view : String} {handle : Bytes}
  {actorArtifact : ActorArtifact} {template : TemplateReceiptArtifact}
  {contract : SilContractArtifact} {silPrefix silState : Bytes}
  (h : HandleFound crates artifact actor view handle actorArtifact template contract silPrefix
    silState)
include h

/-- without an expansion the template of the contract is supplied -/
theorem HandleFound.supplies_sil (hwrites : WritesFields crates)
    (hapart : TellsApart crates artifact) : Supplies crates (.ok (.sil contract)) handle ↔
      template.actorTypeHandle.contextFields = [] := by
  have hparts : TemplateRef.silParts crates contract =
      .ok (silPrefix, template.actorTypeHandle.template.trailing) := by
    unfold TemplateRef.silParts
    rw [h.parts_eq]
    rfl
  have hfront : (TemplateRef.sil contract).prefixBytes crates = .ok silPrefix :=
    bind_eq_ok.mpr ⟨_, hparts, rfl⟩
  have hsuffix : (TemplateRef.sil contract).suffixBytes crates =
      .ok template.actorTypeHandle.template.trailing :=
    bind_eq_ok.mpr ⟨_, hparts, rfl⟩
  rw [← h.context_iff hwrites]
  constructor
  · rintro ⟨_, leading, trailing, hsupplied, hleading, htrailing, hhash⟩
    obtain rfl := Except.ok.inj hsupplied
    obtain rfl := Except.ok.inj (hfront.symm.trans hleading)
    obtain rfl := Except.ok.inj (hsuffix.symm.trans htrailing)
    rw [h.handle_eq] at hhash
    exact hapart template (List.mem_of_find?_eq_some h.receipt_eq) contract _ _ _ h.own_contract
      h.parts_eq (Digest.ext_bytes hhash)
  · intro hsame
    refine ⟨_, _, _, rfl, hfront, hsuffix, ?_⟩
    rw [h.handle_eq, hsame]

theorem HandleFound.openTemplate_eq :
    ArtifactBundle.openTemplate ⟨artifact, actor, contract⟩ view =
      if artifact.expandedBase actorArtifact.state = none ∧ actorArtifact.state = view then
        .ok (.sil contract)
      else if template.actorTypeHandle.state = view then
        .ok (.actorType template.actorTypeHandle.template)
      else .error (.error (.missingActorTypeHandle actor view)) := by
  have href : actorRefInArtifact artifact actor = .ok ⟨artifact, actorArtifact⟩ := by
    unfold actorRefInArtifact
    rw [h.actor_eq]
    rfl
  unfold ArtifactBundle.openTemplate
  dsimp only
  rw [href, h.receipt_eq]
  dsimp only [bind, Except.bind, okOr, rejectIf]
  split_ifs <;> first | rfl | contradiction

end

/-- For every actor for which a handle is returned, the template that the builder supplies as a
hidden witness hashes to that handle if and only if the actor is seen under the base of its
expanded state, or its state is no expansion and its handle fixes no runtime field. -/
theorem hiddenTemplate_matches_iff (crates : Crates) (hwrites : WritesFields crates)
    (bundle : ArtifactBundle crates) (primaryArtifact : Artifact) (hidden : HiddenParamArtifact)
    (entry : EntryArtifact) (templateSelectors : BTreeMap String String)
    (contexts : HiddenArgContexts) (artifact : Artifact) (hapart : TellsApart crates artifact)
    (actor view : String) (handle : Bytes)
    (hwitness : DynamicWitness bundle hidden entry contexts artifact actor view)
    (hhandle : actorTypeHandleInArtifact artifact actor view = .ok handle) :
    Supplies crates
        (bundle.hiddenTemplate primaryArtifact hidden entry templateSelectors contexts) handle ↔
      HandleServed artifact actor view := by
  obtain ⟨actorArtifact, template, contract, silPrefix, silState, h⟩ :=
    handleFound hwitness.consistent hhandle
  have href : contractRefInArtifact artifact actor = .ok ⟨artifact, actor, contract⟩ := by
    unfold contractRefInArtifact contractInArtifact
    rw [h.contract_eq]
    rfl
  have hcondition : HandleServed artifact actor view ↔
      (artifact.expandedBase actorArtifact.state = some view ∨
        (artifact.expandedBase actorArtifact.state = none ∧
          template.actorTypeHandle.contextFields = [])) := by
    constructor
    · rintro ⟨_, _, hactor, hreceipt, hcases⟩
      obtain rfl := Option.some.inj (h.actor_eq.symm.trans hactor)
      obtain rfl := Option.some.inj (h.receipt_eq.symm.trans hreceipt)
      exact hcases
    · intro hcases
      exact ⟨_, _, h.actor_eq, h.receipt_eq, hcases⟩
  rw [hiddenTemplate_eq hwitness, href, hcondition]
  show Supplies crates (ArtifactBundle.openTemplate ⟨artifact, actor, contract⟩ view) handle ↔ _
  rw [h.openTemplate_eq]
  cases hbase : artifact.expandedBase actorArtifact.state with
  | none =>
    have hview : actorArtifact.state = view := by
      obtain hview | hview := h.view_eq
      · rw [hview, hbase]
        rfl
      · exact hview.symm
    rw [if_pos ⟨rfl, hview⟩, h.supplies_sil hwrites hapart]
    simp
  | some base =>
    have hstate : template.actorTypeHandle.state = base := by
      rw [h.state_eq, hbase]
      rfl
    rw [if_neg (by simp), hstate]
    split_ifs with hsame
    · refine iff_of_true ⟨_, _, _, rfl, rfl, rfl, h.handle_eq.symm⟩ (Or.inl ?_)
      rw [hsame]
    · refine iff_of_false ?_ ?_
      · rintro ⟨_, _, _, hsupplied, -⟩
        cases hsupplied
      · rintro (hsome | ⟨hnone, -⟩)
        · exact hsame (Option.some.inj hsome)
        · cases hnone

/-! ## a sample -/

theorem pushCrates_writesFields (blake3 : List (Bytes × Digest))
    (templateHashes : List ((Bytes × Bytes) × Digest)) :
    WritesFields (pushCrates blake3 templateHashes) := by
  intro abi state values script h
  obtain ⟨parts, hparts, rfl⟩ := @pushState_parts abi _ _ _ h
  have hlength := FieldEncoding.length_of_parts hparts
  rw [← List.length_eq_zero_iff, hlength]
  cases state.fields with
  | nil => simp [FieldEncoding.stateWidth]
  | cons field fields => simp [FieldEncoding.stateWidth, pushEncoding]

theorem hive_attached : Attached hiveCrates "hive" hive :=
  ⟨by decide +kernel, hive_consistent⟩

def hiveBundle : ArtifactBundle hiveCrates where
  primaryAlias := "hive"
  apps := (∅ : BTreeMap String Artifact).insert "hive" hive
  primary_mem := by rw [BTreeMap.get_insert_self]; rfl
  attached appAlias artifact h := by
    rw [BTreeMap.get_insert] at h
    split_ifs at h with happ
    · obtain rfl := Option.some.inj h
      exact happ ▸ hive_attached
    · cases h

theorem hive_tellsApart : TellsApart hiveCrates hive := by
  have h : ∀ template ∈ hivePlan.templates, ∀ contract ∈ hive.silAbi.contract template.contract,
      ∀ parts ∈ hiveCrates.scriptParts contract.compiled contract.compiled.bytecode,
        hiveCrates.templateHash parts.1 parts.2.2 = hiveCrates.templateHash
          template.actorTypeHandle.template.leading template.actorTypeHandle.template.trailing →
        parts.1 = template.actorTypeHandle.template.leading := by
    decide +kernel
  intro template htemplate contract silPrefix silState silSuffix hcontract hparts hhash
  exact h template htemplate contract hcontract _ hparts hhash

/-- the first output of the brood is an actor of the hive -/
def broodContexts (actor : String) : HiddenArgContexts where
  observed := some ∅
  spawned := some (BTreeMap.insert (toLex ("brood", "grub")) ⟨"hive", actor, 0⟩ ∅)

def grubPrefix : HiddenParamArtifact :=
  broodParam "grub_prefix" "grub" "kind" .templatePrefixBytes

theorem grub_dynamicWitness (actor : String) :
    DynamicWitness hiveBundle grubPrefix breedEntry (broodContexts actor) hive actor "Cell" :=
  .spawned "brood" "grub" "kind" ⟨"grub", "kind", "Cell", 0, .one, none⟩ ⟨"hive", actor, 0⟩ rfl
    (by decide) rfl (BTreeMap.get_insert_self _ _ _)
    (okOr_eq_ok.mpr (BTreeMap.get_insert_self _ _ _)) rfl

theorem hiddenTemplate_matches_iff_sample :
    Supplies hiveCrates (hiveBundle.hiddenTemplate hive grubPrefix breedEntry ∅
      (broodContexts "Drone")) droneHash.bytes :=
  (hiddenTemplate_matches_iff hiveCrates (pushCrates_writesFields _ _) hiveBundle hive grubPrefix
    breedEntry ∅ (broodContexts "Drone") hive hive_tellsApart "Drone" "Cell" droneHash.bytes
    (grub_dynamicWitness "Drone") rfl).mpr
      ⟨hiveActor "Drone" [breedEntry], hiveReceipt "Drone" droneHash [] ⟨[1, 12], [9], droneHash⟩,
        by decide +kernel, by decide +kernel, Or.inr ⟨by decide, rfl⟩⟩

/-- the handle of a queen fixes the table of her caste, and the template of her contract is
supplied without it -/
theorem hiddenTemplate_mismatch :
    actorTypeHandleInArtifact hive "Queen" "Cell" = .ok queenHandleHash.bytes ∧
    DynamicWitness hiveBundle grubPrefix breedEntry (broodContexts "Queen") hive "Queen" "Cell" ∧
    ¬ Supplies hiveCrates (hiveBundle.hiddenTemplate hive grubPrefix breedEntry ∅
      (broodContexts "Queen")) queenHandleHash.bytes := by
  refine ⟨rfl, grub_dynamicWitness "Queen", ?_⟩
  rintro ⟨template, leading, trailing, hsupplied, hleading, htrailing, hhash⟩
  have hsil : (hiveBundle.hiddenTemplate hive grubPrefix breedEntry ∅ (broodContexts "Queen")).map
      (fun template => (template.prefixBytes hiveCrates, template.suffixBytes hiveCrates)) =
        .ok (.ok [1, 10], .ok [9]) := by
    rw [hiddenTemplate_eq (grub_dynamicWitness "Queen")]
    rfl
  rw [hsupplied] at hsil
  obtain ⟨hfront, hsuffix⟩ := Prod.mk.inj (Except.ok.inj hsil)
  obtain rfl := Except.ok.inj (hleading.symm.trans hfront)
  obtain rfl := Except.ok.inj (htrailing.symm.trans hsuffix)
  exact absurd hhash (by decide +kernel)

end Argent.Runtime
