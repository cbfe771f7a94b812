import Argent.Runtime.Build

/-!
# What building guarantees

The passes of the builder fill in the arguments of each input and leave everything else as binding
found it.  Signing and execution change nothing of the unsigned transaction but the signature
scripts and the compute budgets of its inputs.

* `ResolveContext.unfilled`      a context without what the passes fill in;
* `executeTransactionWithCovenants_ok`      what execution changes;
* `build_built`      the built transaction beside its context.
-/

set_option linter.unusedSectionVars false

namespace Argent.Runtime
open Argent.Fallible Argent.Sil Argent.Artifacts

/-! ## what signing changes -/

/-- the input before it is signed -/
def TransactionInput.unsigned (input : TransactionInput) : TransactionInput :=
  { input with signatureScript := [], computeBudget := 0 }

/-- the transaction before its inputs are signed -/
def Transaction.unsigned (tx : Transaction) : Transaction :=
  { tx with inputs := tx.inputs.map TransactionInput.unsigned }

/-- what an input of a context looks like before it is signed -/
def ContextInput.unsigned (input : ContextInput) : TransactionInput :=
  ⟨input.outpoint, [], input.sequence, 0⟩

theorem map_unsigned_assignSignatureScripts (inputs : List TransactionInput)
    (scripts : List Bytes) : (assignSignatureScripts inputs scripts).map TransactionInput.unsigned =
      inputs.map TransactionInput.unsigned := by
  induction inputs generalizing scripts with
  | nil => cases scripts <;> rfl
  | cons input inputs ih =>
    cases scripts with
    | nil => rfl
    | cons script scripts =>
      show _ :: (assignSignatureScripts inputs scripts).map TransactionInput.unsigned = _ :: _
      rw [ih scripts]
      rfl

theorem assignSignatureScripts_at {inputs : List TransactionInput} {scripts : List Bytes} {i : Nat}
    {input : TransactionInput} {script : Bytes} (hscript : scripts[i]? = some script)
    (hinput : (assignSignatureScripts inputs scripts)[i]? = some input) :
    input.signatureScript = script := by
  induction inputs generalizing scripts i with
  | nil => cases scripts <;> cases hinput
  | cons head inputs ih =>
    cases scripts with
    | nil => cases hscript
    | cons first scripts =>
      cases i with
      | zero =>
        obtain rfl := Option.some.inj hinput
        exact Option.some.inj hscript
      | succ i =>
        have hnext : scripts[i]? = some script := hscript
        exact ih hnext hinput

section
variable {crates : TransactionCrates}

/-- the inputs agree in everything but their compute budgets -/
def BudgetsApart (input input' : TransactionInput) : Prop :=
  { input with computeBudget := 0 } = { input' with computeBudget := 0 }

theorem commitComputeBudget_ok {inputs inputs' : List TransactionInput} {item : UInt64 × Nat}
    (h : commitComputeBudget crates inputs item = .ok inputs') :
    List.Forall₂ BudgetsApart inputs inputs' := by
  obtain ⟨computeBudget, -, h⟩ := bind_eq_ok.mp h
  obtain ⟨input, hinput, h⟩ := bind_eq_ok.mp h
  obtain rfl := pure_eq_ok.mp h
  obtain ⟨hi, hget⟩ := List.getElem?_eq_some_iff.mp (expect_eq_ok.mp hinput)
  refine List.forall₂_iff_get.mpr ⟨(List.length_set).symm, fun i hi' hi'' => ?_⟩
  rw [List.get_eq_getElem, List.get_eq_getElem, List.getElem_set]
  split_ifs with heq
  · subst heq
    rw [hget]
    rfl
  · rfl

theorem BudgetsApart.forall₂_trans {l l' l'' : List TransactionInput}
    (h : List.Forall₂ BudgetsApart l l') (h' : List.Forall₂ BudgetsApart l' l'') :
    List.Forall₂ BudgetsApart l l'' := by
  induction h generalizing l'' with
  | nil =>
    cases h'
    exact .nil
  | cons hab _ ih =>
    cases h' with
    | cons hbc hrest => exact .cons (hab.trans hbc) (ih hrest)

/-- execution commits compute budgets and changes nothing else -/
theorem executeTransactionWithCovenants_ok {tx tx' : Transaction} {entries : List UtxoEntry}
    (h : executeTransactionWithCovenants crates tx entries = .ok tx') :
    List.Forall₂ BudgetsApart tx.inputs tx'.inputs ∧ tx' = { tx with inputs := tx'.inputs } := by
  obtain ⟨-, h⟩ := check_eq_ok.mp h
  obtain ⟨-, h⟩ := check_eq_ok.mp h
  obtain ⟨-, h⟩ := check_eq_ok.mp h
  obtain ⟨usedScriptUnits, -, h⟩ := bind_eq_ok.mp h
  obtain ⟨inputs, hinputs, h⟩ := bind_eq_ok.mp h
  obtain ⟨-, h⟩ := check_eq_ok.mp h
  obtain ⟨-, h⟩ := check_eq_ok.mp h
  obtain rfl := pure_eq_ok.mp h
  refine ⟨?_, rfl⟩
  refine foldlM_ok (fun _ inputs => List.Forall₂ BudgetsApart tx.inputs inputs) hinputs
    (List.forall₂_same.mpr fun _ _ => rfl) ?_
  intro _ inputs item inputs' _ hinputs hstep
  exact BudgetsApart.forall₂_trans hinputs (commitComputeBudget_ok hstep)

end

/-! ## what the passes fill in -/

/-- the input as binding found it -/
def ResolveInput.unfilled : ResolveInput → ResolveInput
  | .actor input => .actor { input with
      args := none, observations := none, spawnedActors := none, hiddenArgs := none }
  | .ordinary input => .ordinary input

def ResolveContext.unfilled (context : ResolveContext) : ResolveContext :=
  { context with inputs := context.inputs.map ResolveInput.unfilled }

theorem ResolveContext.input_unfilled (context : ResolveContext) (i : Nat) :
    context.unfilled.inputs[i]? = context.inputs[i]?.map ResolveInput.unfilled :=
  List.getElem?_map

theorem ResolveInput.covenantId_unfilled (input : ResolveInput) :
    input.unfilled.covenantId = input.covenantId := by
  cases input <;> rfl

/-- observed inputs are found by what binding found -/
theorem matchingObservedInputs_unfilled (context : ResolveContext) (covenantId : Digest) :
    matchingObservedInputs context.unfilled covenantId =
      matchingObservedInputs context covenantId := by
  unfold matchingObservedInputs ResolveContext.unfilled
  dsimp only
  rw [List.zipIdx_map, List.filter_map, List.map_map]
  have hfilter : ((fun item : ResolveInput × Nat => decide (item.1.covenantId = some covenantId)) ∘
      Prod.map ResolveInput.unfilled id) =
        fun item : ResolveInput × Nat => decide (item.1.covenantId = some covenantId) := by
    funext item
    show decide (item.1.unfilled.covenantId = some covenantId) = _
    rw [ResolveInput.covenantId_unfilled]
  rw [hfilter]
  rfl

theorem resolveObservedInput_unfilled (context : ResolveContext) (observe : String) :
    resolveObservedInput context.unfilled observe = resolveObservedInput context observe := by
  funext state item
  unfold resolveObservedInput
  dsimp only
  rw [ResolveContext.input_unfilled]
  cases context.inputs[item.2]? with
  | none => rfl
  | some candidate => cases candidate <;> rfl

theorem resolveObservation_unfilled (context : ResolveContext) (unsigned : MutableTransaction)
    (input : ResolveActorInput) (observe : ObserveArtifact) (covenantId : Digest) :
    resolveObservation context.unfilled unsigned input observe covenantId =
      resolveObservation context unsigned input observe covenantId := by
  unfold resolveObservation
  rw [matchingObservedInputs_unfilled, resolveObservedInput_unfilled]
  rfl

theorem resolveObserve_unfilled (context : ResolveContext) (unsigned : MutableTransaction)
    (input : ResolveActorInput) (args : ResolvedEntryArgs) :
    resolveObserve context.unfilled unsigned input args =
      resolveObserve context unsigned input args := by
  funext observations observe
  unfold resolveObserve
  congr 1
  funext covenantId
  rw [resolveObservation_unfilled]

/-! ## one pass after another -/

theorem getElem?_of_mapM_zipIdx {α β ε : Type} {f : α × Nat → Except ε β} {l : List α}
    {out : List β} (h : l.zipIdx.mapM f = .ok out) {i : Nat} {a : α} (ha : l[i]? = some a) :
    ∃ b, out[i]? = some b ∧ f (a, i) = .ok b := by
  have hat : l.zipIdx[i]? = some (a, i) := by
    rw [List.getElem?_zipIdx, ha, Option.map_some, Nat.zero_add]
  exact getElem?_of_mapM_ok h hat

theorem unfilled_of_mapM {context : ResolveContext} {f : ResolveInput → BuilderResult ResolveInput}
    {inputs : List ResolveInput} (h : context.inputs.mapM f = .ok inputs)
    (hf : ∀ input input', f input = .ok input' → input'.unfilled = input.unfilled) :
    ({ context with inputs := inputs } : ResolveContext).unfilled = context.unfilled := by
  unfold ResolveContext.unfilled
  dsimp only
  rw [map_of_mapM_ok h hf]

theorem unfilled_of_mapM_zipIdx {context : ResolveContext}
    {f : ResolveInput × Nat → BuilderResult ResolveInput} {inputs : List ResolveInput}
    (h : context.inputs.zipIdx.mapM f = .ok inputs)
    (hf : ∀ item input', f item = .ok input' → input'.unfilled = item.1.unfilled) :
    ({ context with inputs := inputs } : ResolveContext).unfilled = context.unfilled := by
  have hmap : inputs.map ResolveInput.unfilled = context.inputs.map ResolveInput.unfilled := by
    rw [map_of_mapM_ok h hf]
    show context.inputs.zipIdx.map (ResolveInput.unfilled ∘ Prod.fst) = _
    rw [← List.map_map, List.zipIdx_map_fst]
  unfold ResolveContext.unfilled
  dsimp only
  rw [hmap]

section
variable {crates : TransactionCrates} {builder : TxBuilder crates.toRuntimeCrates}
  {unsigned : MutableTransaction} {context context' : ResolveContext}

theorem resolveContextArgs_ok (h : resolveContextArgs context unsigned = .ok context') :
    context'.unfilled = context.unfilled ∧
      ∀ (i : Nat) (input : ResolveInput), context.inputs[i]? = some input →
        ∃ input', context'.inputs[i]? = some input' ∧
          resolveInputArgs unsigned (input, i) = .ok input' := by
  obtain ⟨inputs, hinputs, h⟩ := bind_eq_ok.mp h
  obtain rfl := pure_eq_ok.mp h
  refine ⟨unfilled_of_mapM_zipIdx hinputs fun ⟨input, i⟩ input' hstep => ?_,
    fun i input hinput => getElem?_of_mapM_zipIdx hinputs hinput⟩
  cases input with
  | ordinary input =>
    obtain rfl := pure_eq_ok.mp hstep
    rfl
  | actor input =>
    obtain ⟨args, -, hstep⟩ := bind_eq_ok.mp hstep
    obtain rfl := pure_eq_ok.mp hstep
    rfl

theorem resolveContextObservations_ok
    (h : builder.resolveContextObservations context unsigned = .ok context') :
    context'.unfilled = context.unfilled ∧
      ∀ (i : Nat) (input : ResolveInput), context.inputs[i]? = some input →
        ∃ input', context'.inputs[i]? = some input' ∧
          builder.resolveInputObservations context unsigned input = .ok input' := by
  obtain ⟨inputs, hinputs, h⟩ := bind_eq_ok.mp h
  obtain rfl := pure_eq_ok.mp h
  refine ⟨unfilled_of_mapM hinputs fun input input' hstep => ?_,
    fun i input hinput => getElem?_of_mapM_ok hinputs hinput⟩
  cases input with
  | ordinary input =>
    obtain rfl := pure_eq_ok.mp hstep
    rfl
  | actor input =>
    obtain ⟨observations, -, hstep⟩ := bind_eq_ok.mp hstep
    obtain rfl := pure_eq_ok.mp hstep
    rfl

theorem resolveContextSpawns_ok (h : builder.resolveContextSpawns context = .ok context') :
    context'.unfilled = context.unfilled ∧
      ∀ (i : Nat) (input : ResolveInput), context.inputs[i]? = some input →
        ∃ input', context'.inputs[i]? = some input' ∧
          builder.resolveInputSpawns context (input, i) = .ok input' := by
  obtain ⟨inputs, hinputs, h⟩ := bind_eq_ok.mp h
  obtain rfl := pure_eq_ok.mp h
  refine ⟨unfilled_of_mapM_zipIdx hinputs fun ⟨input, i⟩ input' hstep => ?_,
    fun i input hinput => getElem?_of_mapM_zipIdx hinputs hinput⟩
  cases input with
  | ordinary input =>
    obtain rfl := pure_eq_ok.mp hstep
    rfl
  | actor input =>
    obtain ⟨spawned, -, hstep⟩ := bind_eq_ok.mp hstep
    obtain rfl := pure_eq_ok.mp hstep
    rfl

theorem resolveContextHiddenArgs_ok (h : builder.resolveContextHiddenArgs context = .ok context') :
    context'.unfilled = context.unfilled ∧
      ∀ (i : Nat) (input : ResolveInput), context.inputs[i]? = some input →
        ∃ input', context'.inputs[i]? = some input' ∧
          builder.resolveInputHiddenArgs input = .ok input' := by
  obtain ⟨inputs, hinputs, h⟩ := bind_eq_ok.mp h
  obtain rfl := pure_eq_ok.mp h
  refine ⟨unfilled_of_mapM hinputs fun input input' hstep => ?_,
    fun i input hinput => getElem?_of_mapM_ok hinputs hinput⟩
  cases input with
  | ordinary input =>
    obtain rfl := pure_eq_ok.mp hstep
    rfl
  | actor input =>
    obtain ⟨args, -, hstep⟩ := bind_eq_ok.mp hstep
    obtain ⟨observations, -, hstep⟩ := bind_eq_ok.mp hstep
    obtain ⟨spawned, -, hstep⟩ := bind_eq_ok.mp hstep
    obtain ⟨hiddenArgs, -, hstep⟩ := bind_eq_ok.mp hstep
    obtain rfl := pure_eq_ok.mp hstep
    rfl

/-- the arguments of an actor input, resolved for its own entry and position from what binding
found; deferred ones are computed from the unsigned transaction -/
structure ArgsResolved (builder : TxBuilder crates.toRuntimeCrates) (bound : ResolveContext)
    (unsigned : MutableTransaction) (inputIndex : Nat) (input : ResolveActorInput)
    (args : ResolvedEntryArgs) (hiddenArgs : List ArtifactValue) : Prop where
  user : ∃ userArgs, sourceArgs unsigned inputIndex input = .ok userArgs ∧
    userArgs.length + input.artifactEntry.hiddenParams.length = input.silEntry.params.length ∧
    lowerArgValues input.source.actor.actor input.source.entry.name input.silEntry
      input.artifactEntry userArgs = .ok args
  hidden : ∃ observations spawnedActors last,
    input.artifactEntry.observes.foldlM (resolveObserve bound unsigned input args) ∅ =
      .ok observations ∧
    builder.validateObservedContexts input.artifact input.source.actor.actor
      input.source.entry.name input.artifactEntry observations = .ok ⟨⟩ ∧
    input.artifactEntry.spawns.foldlM
      (builder.resolveClause bound inputIndex { input with args := some args }) (∅, none) =
        .ok (spawnedActors, last) ∧
    builder.resolveHiddenArgsInArtifact input.contractRef input.artifactEntry input.source.state
      args.templateSelectors ⟨some observations, some spawnedActors⟩ = .ok hiddenArgs

theorem resolveActorArgs_ok {inputIndex : Nat} {input : ResolveActorInput}
    {args : ResolvedEntryArgs} (h : resolveActorArgs unsigned inputIndex input = .ok args) :
    ∃ userArgs, sourceArgs unsigned inputIndex input = .ok userArgs ∧
      userArgs.length + input.artifactEntry.hiddenParams.length = input.silEntry.params.length ∧
      lowerArgValues input.source.actor.actor input.source.entry.name input.silEntry
        input.artifactEntry userArgs = .ok args := by
  obtain ⟨expectedCount, hexpected, h⟩ := bind_eq_ok.mp h
  obtain ⟨userArgs, huser, h⟩ := bind_eq_ok.mp h
  obtain ⟨hcount, h⟩ := check_eq_ok.mp h
  rw [rejectIf_eq_ok, not_not] at hcount
  have hsub := okOr_eq_ok.mp hexpected
  unfold checkedSub at hsub
  split_ifs at hsub with hle
  have hlength := Option.some.inj hsub
  exact ⟨userArgs, huser, by omega, h⟩

/-- the input after all passes -/
structure InputResolved (builder : TxBuilder crates.toRuntimeCrates) (bound : ResolveContext)
    (unsigned : MutableTransaction) (inputIndex : Nat) (input final : ResolveInput) : Prop where
  ordinary : ∀ source, input = .ordinary source → final = .ordinary source
  actor : ∀ source, input = .actor source → ∃ args observations spawnedActors hiddenArgs,
    ArgsResolved builder bound unsigned inputIndex source args hiddenArgs ∧
      final = .actor { source with
        args := some args
        observations := some observations
        spawnedActors := some spawnedActors
        hiddenArgs := some hiddenArgs }

/-- the passes, of which each finds what the ones before it filled in -/
theorem passes_ok {bound withArgs withObservations withSpawns final : ResolveContext}
    (hbound : bound.unfilled = bound) (hargs : resolveContextArgs bound unsigned = .ok withArgs)
    (hobserve : builder.resolveContextObservations withArgs unsigned = .ok withObservations)
    (hspawn : builder.resolveContextSpawns withObservations = .ok withSpawns)
    (hhidden : builder.resolveContextHiddenArgs withSpawns = .ok final) :
    final.unfilled = bound ∧
      ∀ (i : Nat) (input : ResolveInput), bound.inputs[i]? = some input →
        ∃ input', final.inputs[i]? = some input' ∧
          InputResolved builder bound unsigned i input input' := by
  obtain ⟨hargsUnfilled, hargsAt⟩ := resolveContextArgs_ok hargs
  obtain ⟨hobserveUnfilled, hobserveAt⟩ := resolveContextObservations_ok hobserve
  obtain ⟨hspawnUnfilled, hspawnAt⟩ := resolveContextSpawns_ok hspawn
  obtain ⟨hhiddenUnfilled, hhiddenAt⟩ := resolveContextHiddenArgs_ok hhidden
  have hargsBound : withArgs.unfilled = bound := hargsUnfilled.trans hbound
  have hobserveBound : withObservations.unfilled = bound := hobserveUnfilled.trans hargsBound
  refine ⟨hhiddenUnfilled.trans (hspawnUnfilled.trans hobserveBound), fun i input hinput => ?_⟩
  obtain ⟨first, hfirst, hargsStep⟩ := hargsAt i input hinput
  obtain ⟨second, hsecond, hobserveStep⟩ := hobserveAt i first hfirst
  obtain ⟨third, hthird, hspawnStep⟩ := hspawnAt i second hsecond
  obtain ⟨last, hlast, hhiddenStep⟩ := hhiddenAt i third hthird
  refine ⟨last, hlast, ?_, ?_⟩
  · rintro source rfl
    obtain rfl := pure_eq_ok.mp hargsStep
    obtain rfl := pure_eq_ok.mp hobserveStep
    obtain rfl := pure_eq_ok.mp hspawnStep
    exact (pure_eq_ok.mp hhiddenStep).symm
  · rintro source rfl
    obtain ⟨args, huser, hargsStep⟩ := bind_eq_ok.mp hargsStep
    obtain rfl := pure_eq_ok.mp hargsStep
    obtain ⟨observations, hobservations, hobserveStep⟩ := bind_eq_ok.mp hobserveStep
    obtain rfl := pure_eq_ok.mp hobserveStep
    obtain ⟨⟨spawnedActors, previous⟩, hspawned, hspawnStep⟩ := bind_eq_ok.mp hspawnStep
    obtain rfl := pure_eq_ok.mp hspawnStep
    obtain ⟨_, hsame, hhiddenStep⟩ := bind_eq_ok.mp hhiddenStep
    obtain rfl := Option.some.inj (expect_eq_ok.mp hsame)
    obtain ⟨_, hsame, hhiddenStep⟩ := bind_eq_ok.mp hhiddenStep
    obtain rfl := Option.some.inj (expect_eq_ok.mp hsame)
    obtain ⟨_, hsame, hhiddenStep⟩ := bind_eq_ok.mp hhiddenStep
    obtain rfl := Option.some.inj (expect_eq_ok.mp hsame)
    obtain ⟨hiddenArgs, hhiddenArgs, hhiddenStep⟩ := bind_eq_ok.mp hhiddenStep
    obtain rfl := pure_eq_ok.mp hhiddenStep
    obtain ⟨_, hsame, hobservations⟩ := bind_eq_ok.mp hobservations
    obtain rfl := Option.some.inj (expect_eq_ok.mp hsame)
    obtain ⟨_, hobserved, hobservations⟩ := bind_eq_ok.mp hobservations
    obtain ⟨hvalid, hobservations⟩ := check_eq_ok.mp hobservations
    obtain rfl := pure_eq_ok.mp hobservations
    refine ⟨args, _, _, hiddenArgs, ⟨resolveActorArgs_ok huser, ?_⟩, rfl⟩
    refine ⟨_, spawnedActors, previous, ?_, hvalid, ?_, hhiddenArgs⟩
    · rw [← resolveObserve_unfilled, hargsBound] at hobserved
      exact hobserved
    · rw [← hobserveBound]
      exact hspawned

/-! ## from the context to the unsigned transaction -/

theorem bindInput_unfilled {source : ContextInput} {input : ResolveInput}
    (h : builder.bindInput source = .ok input) : input.unfilled = input := by
  cases source with
  | ordinary source =>
    obtain rfl := pure_eq_ok.mp h
    rfl
  | actor source =>
    obtain ⟨contractRef, -, h⟩ := bind_eq_ok.mp h
    obtain ⟨actorRef, -, h⟩ := bind_eq_ok.mp h
    obtain ⟨artifactEntry, -, h⟩ := bind_eq_ok.mp h
    obtain ⟨silEntry, -, h⟩ := bind_eq_ok.mp h
    obtain rfl := pure_eq_ok.mp h
    rfl

theorem bindInput_actor {source : ActorInput} {input : ResolveActorInput}
    (h : builder.bindInput (.actor source) = .ok (.actor input)) :
    input.source = source ∧ input.artifactEntry.name = source.entry.name := by
  obtain ⟨contractRef, -, h⟩ := bind_eq_ok.mp h
  obtain ⟨actorRef, -, h⟩ := bind_eq_ok.mp h
  obtain ⟨artifactEntry, hentry, h⟩ := bind_eq_ok.mp h
  obtain ⟨silEntry, -, h⟩ := bind_eq_ok.mp h
  obtain rfl := ResolveInput.actor.inj (pure_eq_ok.mp h)
  have hname := List.find?_some (okOr_eq_ok.mp hentry)
  exact ⟨rfl, eq_of_beq hname⟩

theorem bindInput_kind {source : ContextInput} {input : ResolveInput}
    (h : builder.bindInput source = .ok input) :
    (∃ actorSource found, source = .actor actorSource ∧ input = .actor found) ∨
      ∃ ordinary, source = .ordinary ordinary ∧ input = .ordinary ordinary := by
  cases source with
  | ordinary source => exact Or.inr ⟨source, rfl, (pure_eq_ok.mp h).symm⟩
  | actor source =>
    obtain ⟨contractRef, -, h⟩ := bind_eq_ok.mp h
    obtain ⟨actorRef, -, h⟩ := bind_eq_ok.mp h
    obtain ⟨artifactEntry, -, h⟩ := bind_eq_ok.mp h
    obtain ⟨silEntry, -, h⟩ := bind_eq_ok.mp h
    exact Or.inl ⟨source, _, rfl, (pure_eq_ok.mp h).symm⟩

theorem unsignedInput_ok {source : ContextInput} {input : ResolveInput} {i : Nat}
    {found : TransactionInput × UtxoEntry} (hbind : builder.bindInput source = .ok input)
    (h : TxBuilder.unsignedInput crates.toRuntimeCrates (input, i) = .ok found) :
    found = (source.unsigned, source.utxo) := by
  obtain ⟨actorSource, bound, rfl, rfl⟩ | ⟨ordinary, rfl, rfl⟩ := bindInput_kind hbind
  · obtain ⟨-, h⟩ := check_eq_ok.mp h
    obtain ⟨script, -, h⟩ := bind_eq_ok.mp h
    obtain ⟨-, h⟩ := check_eq_ok.mp h
    obtain rfl := pure_eq_ok.mp h
    rw [(bindInput_actor hbind).1]
    rfl
  · exact (pure_eq_ok.mp h).symm

theorem unsignedInputs_ok {sources : List ContextInput} {inputs : List ResolveInput}
    {found : List (TransactionInput × UtxoEntry)}
    (hbind : sources.mapM builder.bindInput = .ok inputs)
    (h : inputs.zipIdx.mapM (TxBuilder.unsignedInput crates.toRuntimeCrates) = .ok found) :
    found = sources.map fun source => (source.unsigned, source.utxo) := by
  refine List.ext_getElem? fun i => ?_
  rw [List.getElem?_map]
  cases hsource : sources[i]? with
  | none =>
    have hlength : found.length = sources.length := by
      rw [← (mapM_ok h).length_eq, List.length_zipIdx, (mapM_ok hbind).length_eq]
    rw [Option.map_none, List.getElem?_eq_none_iff, hlength]
    exact List.getElem?_eq_none_iff.mp hsource
  | some source =>
    obtain ⟨input, hinput, hstep⟩ := getElem?_of_mapM_ok hbind hsource
    obtain ⟨pair, hpair, hstep'⟩ := getElem?_of_mapM_zipIdx h hinput
    rw [hpair, unsignedInput_ok hstep hstep']
    rfl

theorem bindContext_unfilled {source : TxContext} {bound : ResolveContext}
    (h : builder.bindContext source = .ok bound) : bound.unfilled = bound := by
  obtain ⟨boundOutputs, groups, stateContext, hphases⟩ := TxBuilder.bindContext_phases h
  have hinputs : bound.inputs.map ResolveInput.unfilled = bound.inputs := by
    refine (List.map_congr_left fun input hinput => ?_).trans (List.map_id _)
    obtain ⟨source, -, hsource⟩ := mem_of_mapM_ok hphases.inputs_ok hinput
    exact bindInput_unfilled hsource
  unfold ResolveContext.unfilled
  rw [hinputs]

theorem bindContext_data {source : TxContext} {bound : ResolveContext}
    (h : builder.bindContext source = .ok bound) :
    bound.lockTime = source.lockTime ∧ bound.subnetworkId = source.subnetworkId ∧
      bound.gas = source.gas ∧ bound.payload = source.payload := by
  obtain ⟨inputs, -, h⟩ := bind_eq_ok.mp h
  obtain ⟨first, -, h⟩ := bind_eq_ok.mp h
  obtain ⟨stateContext, -, h⟩ := bind_eq_ok.mp h
  obtain ⟨outputs, -, h⟩ := bind_eq_ok.mp h
  obtain rfl := pure_eq_ok.mp h
  exact ⟨rfl, rfl, rfl, rfl⟩

/-- the unsigned transaction of a context, apart from its outputs -/
structure Unsigned (source : TxContext) (unsigned : MutableTransaction) : Prop where
  version_eq : unsigned.tx.version = TxBuilder.txVersion
  inputs_eq : unsigned.tx.inputs = source.inputs.map ContextInput.unsigned
  length_outputs : unsigned.tx.outputs.length = source.outputs.length
  lockTime_eq : unsigned.tx.lockTime = source.lockTime
  subnetworkId_eq : unsigned.tx.subnetworkId = source.subnetworkId
  gas_eq : unsigned.tx.gas = source.gas
  payload_eq : unsigned.tx.payload = source.payload
  entries_eq : unsigned.entries = source.inputs.map fun input => some input.utxo

theorem unsignedTransaction_ok {source : TxContext} {bound : ResolveContext}
    (hbind : builder.bindContext source = .ok bound)
    (h : TxBuilder.unsignedTransaction crates.toRuntimeCrates bound = .ok unsigned) :
    Unsigned source unsigned := by
  obtain ⟨boundOutputs, groups, stateContext, hphases⟩ := TxBuilder.bindContext_phases hbind
  obtain ⟨hlock, hsubnetwork, hgas, hpayload⟩ := bindContext_data hbind
  obtain ⟨inputs, hinputs, h⟩ := bind_eq_ok.mp h
  obtain ⟨outputs, houtputs, h⟩ := bind_eq_ok.mp h
  obtain rfl := pure_eq_ok.mp h
  obtain rfl := unsignedInputs_ok hphases.inputs_ok hinputs
  have hlength : outputs.length = source.outputs.length := by
    rw [← (mapM_ok houtputs).length_eq, hphases.length_outputs]
  refine ⟨rfl, ?_, hlength, hlock, hsubnetwork, hgas, hpayload, ?_⟩
  · show List.map Prod.fst (source.inputs.map _) = _
    rw [List.map_map]
    rfl
  · show List.map some (List.map Prod.snd (source.inputs.map _)) = _
    rw [List.map_map, List.map_map]
    rfl

end

/-! ## the built transaction -/

section
variable {crates : TransactionCrates}

/-- the script of an input, from its own entry and position -/
inductive Signed (builder : TxBuilder crates.toRuntimeCrates) (bound : ResolveContext)
    (unsigned : MutableTransaction) (inputIndex : Nat) : ContextInput → Bytes → Prop where
  | actor (source : ActorInput) (input : ResolveActorInput) (args : ResolvedEntryArgs)
      (hiddenArgs : List ArtifactValue) (abiScript redeemScript script : Bytes)
      (bind_ok : builder.bindInput (.actor source) = .ok (.actor input))
      (source_eq : input.source = source)
      (entry_eq : input.artifactEntry.name = source.entry.name)
      (args_ok : ArgsResolved builder bound unsigned inputIndex input args hiddenArgs)
      (abiScript_ok : crates.encodeEntrySigScript input.artifact.silAbi input.contractName
        input.contract source.entry.name input.silEntry (args.values ++ hiddenArgs) = .ok abiScript)
      (redeemScript_ok : redeemScriptForContract crates.toRuntimeCrates input.contractRef
        source.state = .ok redeemScript)
      (script_ok : crates.payToScriptHashSignatureScript redeemScript abiScript = .ok script) :
      Signed builder bound unsigned inputIndex (.actor source) script
  | static (source : OrdinaryInput) (script : Bytes)
      (script_eq : source.signatureScript = .static script) :
      Signed builder bound unsigned inputIndex (.ordinary source) script
  | withTransaction (source : OrdinaryInput)
      (build : MutableTransaction → Nat → Except String Bytes) (script : Bytes)
      (script_eq : source.signatureScript = .withTransaction build)
      (build_ok : build unsigned inputIndex = .ok script) :
      Signed builder bound unsigned inputIndex (.ordinary source) script

/-- an input of the built transaction beside the input of the context at its position -/
structure InputBuilt (builder : TxBuilder crates.toRuntimeCrates) (bound : ResolveContext)
    (unsigned : MutableTransaction) (inputIndex : Nat) (source : ContextInput)
    (input : TransactionInput) : Prop where
  outpoint_eq : input.previousOutpoint = source.outpoint
  sequence_eq : input.sequence = source.sequence
  entry_eq : unsigned.entries[inputIndex]? = some (some source.utxo)
  signed : Signed builder bound unsigned inputIndex source input.signatureScript

/-- an output without its binding, as it is hashed for the id of its group -/
def GroupOutput (tx : Transaction) (index : Nat) (hashed : UInt32 × TransactionOutput) : Prop :=
  hashed.1.toNat = index ∧
    ∃ output, tx.outputs[index]? = some output ∧ hashed.2 = { output with covenant := none }

/-- an output of the built transaction beside the output of the context at its position; deferred
states ask `stateContext` for covenant ids -/
structure OutputBuilt (builder : TxBuilder crates.toRuntimeCrates) (context : TxContext)
    (stateContext : StateContext) (tx : Transaction) (source : ContextOutput)
    (output : TransactionOutput) : Prop where
  value_eq : output.value = source.value
  actor : ∀ path state, source.owner = .actor path state → ∃ contract resolved,
    builder.bindActor path = .ok contract ∧ state.resolve stateContext = .ok resolved ∧
      actorScript crates.toRuntimeCrates contract resolved = .ok output.scriptPublicKey
  spk : ∀ script, source.owner = .spk script → output.scriptPublicKey = script
  unbound : source.covenant = .unbound → output.covenant = none
  existing : ∀ binding, source.covenant = .existing binding → output.covenant = some binding
  genesis : ∀ authorizingInput subgroup, source.covenant = .genesis authorizingInput subgroup →
    ∃ authorizer hashed, context.inputs[authorizingInput.toNat]? = some authorizer ∧
      List.Forall₂ (GroupOutput tx) (groupIndices context authorizingInput subgroup) hashed ∧
      output.covenant = some ⟨authorizingInput, crates.covenantId authorizer.outpoint hashed⟩ ∧
      stateContext.genesisCovenantId authorizingInput subgroup =
        some (crates.covenantId authorizer.outpoint hashed)

/-- the built transaction beside its context and the unsigned transaction that callbacks see -/
structure Built (builder : TxBuilder crates.toRuntimeCrates) (context : TxContext)
    (bound : ResolveContext) (unsigned : MutableTransaction) (stateContext : StateContext)
    (tx : Transaction) : Prop where
  unsigned_eq : tx.unsigned = unsigned.tx
  version_eq : tx.version = TxBuilder.txVersion
  lockTime_eq : tx.lockTime = context.lockTime
  subnetworkId_eq : tx.subnetworkId = context.subnetworkId
  gas_eq : tx.gas = context.gas
  payload_eq : tx.payload = context.payload
  entries_eq : unsigned.entries = context.inputs.map fun input => some input.utxo
  length_inputs : tx.inputs.length = context.inputs.length
  length_outputs : tx.outputs.length = context.outputs.length
  inputs : ∀ (i : Nat) (source : ContextInput), context.inputs[i]? = some source →
    ∃ input, tx.inputs[i]? = some input ∧ InputBuilt builder bound unsigned i source input
  outputs : ∀ (i : Nat) (source : ContextOutput), context.outputs[i]? = some source →
    ∃ output, tx.outputs[i]? = some output ∧
      OutputBuilt builder context stateContext tx source output
  states : ∀ authorizingInput subgroup covenantId,
    stateContext.genesisCovenantId authorizingInput subgroup = some covenantId →
      ∃ (i : Nat) (source : ContextOutput) (output : TransactionOutput),
        context.outputs[i]? = some source ∧
        source.covenant = .genesis authorizingInput subgroup ∧ tx.outputs[i]? = some output ∧
        output.covenant = some ⟨authorizingInput, covenantId⟩

variable {builder : TxBuilder crates.toRuntimeCrates} {context : TxContext} {bound : ResolveContext}
  {unsigned : MutableTransaction}

/-- a resolved input is signed for its own entry and position -/
theorem inputSignatureScript_signed {source : ContextInput} {input final : ResolveInput} {i : Nat}
    {script : Bytes} (hbind : builder.bindInput source = .ok input)
    (hresolved : InputResolved builder bound unsigned i input final)
    (h : inputSignatureScript crates unsigned (final, i) = .ok script) :
    Signed builder bound unsigned i source script := by
  obtain ⟨actorSource, found, rfl, rfl⟩ | ⟨ordinary, rfl, rfl⟩ := bindInput_kind hbind
  · obtain ⟨args, observations, spawnedActors, hiddenArgs, hargs, rfl⟩ := hresolved.actor _ rfl
    obtain ⟨hsource, hentry⟩ := bindInput_actor hbind
    obtain ⟨_, hsame, h⟩ := bind_eq_ok.mp h
    obtain rfl := Option.some.inj (expect_eq_ok.mp hsame)
    obtain ⟨_, hsame, h⟩ := bind_eq_ok.mp h
    obtain rfl := Option.some.inj (expect_eq_ok.mp hsame)
    obtain ⟨abiScript, habi, h⟩ := bind_eq_ok.mp h
    obtain ⟨redeemScript, hredeem, h⟩ := bind_eq_ok.mp h
    have habi' := orFail_eq_ok.mp habi
    dsimp only at habi' hredeem
    rw [hentry] at habi'
    rw [hsource] at hredeem
    exact .actor actorSource found args hiddenArgs abiScript redeemScript script hbind hsource
      hentry hargs habi' hredeem (orFail_eq_ok.mp h)
  · rw [hresolved.ordinary _ rfl] at h
    unfold inputSignatureScript at h
    dsimp only at h
    split at h
    next found hstatic =>
      obtain rfl := pure_eq_ok.mp h
      exact .static ordinary found hstatic
    next build hbuild => exact .withTransaction ordinary build script hbuild (orFail_eq_ok.mp h)

section
variable {boundOutputs : List BoundOutput} {groups : GenesisGroups} {stateContext : StateContext}
  {tx : Transaction}
  (hphases : TxBuilder.Phases builder context bound boundOutputs groups stateContext)
  (hunsigned : TxBuilder.unsignedTransaction crates.toRuntimeCrates bound = .ok unsigned)
  (houtputs : tx.outputs = unsigned.tx.outputs)
include hphases hunsigned houtputs

theorem outputBuilt {i : Nat} {source : ContextOutput} (hsource : context.outputs[i]? = some source) :
    ∃ output, tx.outputs[i]? = some output ∧
      OutputBuilt builder context stateContext tx source output := by
  obtain ⟨boundOutput, output, -, houtput, hbeside, hresolve⟩ := hphases.output_at hsource
  obtain ⟨other, hother, hbound⟩ := hphases.outputBound hsource
  obtain rfl := Option.some.inj (houtput.symm.trans hother)
  obtain ⟨final, hfinal, hout⟩ := TxBuilder.unsignedTransaction_output hunsigned houtput
  obtain ⟨script, hscript, hout⟩ := bind_eq_ok.mp hout
  obtain rfl := pure_eq_ok.mp hout
  obtain ⟨binding, -, hresolve⟩ := bind_eq_ok.mp hresolve
  obtain ⟨owner, howner, hresolve⟩ := bind_eq_ok.mp hresolve
  obtain rfl := pure_eq_ok.mp hresolve
  rw [← houtputs] at hfinal
  refine ⟨_, hfinal, hbound.value_eq, fun path state hactor => ?_, fun found hspk => ?_,
    fun hcovenant => ?_, fun existing hcovenant => ?_,
    fun authorizingInput subgroup hcovenant => ?_⟩
  · obtain ⟨contract, hcontract, hkept⟩ := hbeside.actor path state hactor
    rw [hkept] at howner
    obtain ⟨resolved, hstate, howner⟩ := bind_eq_ok.mp howner
    obtain rfl := pure_eq_ok.mp howner
    exact ⟨contract, resolved, hcontract, orFail_eq_ok.mp hstate, hscript⟩
  · rw [hbeside.spk found hspk] at howner
    obtain rfl := pure_eq_ok.mp howner
    exact (pure_eq_ok.mp hscript).symm
  · have hbinding := hbound.unbound hcovenant
    dsimp only at hbinding ⊢
    rw [hbinding]
    rfl
  · have hbinding := hbound.existing existing hcovenant
    dsimp only at hbinding ⊢
    rw [hbinding]
    rfl
  · obtain ⟨name, authorizer, hashed, -, hauthorizer, hgroup, hbinding⟩ :=
      hbound.genesis authorizingInput subgroup hcovenant
    obtain ⟨name', covenantId, -, hid, hbinding'⟩ := hphases.genesis_binding hsource hcovenant houtput
    rw [hbinding] at hbinding'
    obtain ⟨hsame, -⟩ := ResolvedOutputBinding.genesis.inj hbinding'
    rw [CovenantBinding.mk.injEq] at hsame
    refine ⟨authorizer, hashed, hauthorizer, ?_, ?_, ?_⟩
    · refine hgroup.imp fun index hash hat => ⟨hat.index_eq, ?_⟩
      rw [houtputs]
      exact hat.transaction unsigned hunsigned
    · dsimp only at hbinding ⊢
      rw [hbinding]
      rfl
    · rw [hid, ← hsame.2]

/-- every id that a deferred state can ask for is carried by an output -/
theorem genesisCovenantId_built {authorizingInput : UInt16} {subgroup : String}
    {covenantId : Digest}
    (hid : stateContext.genesisCovenantId authorizingInput subgroup = some covenantId) :
    ∃ (i : Nat) (source : ContextOutput) (output : TransactionOutput),
      context.outputs[i]? = some source ∧ source.covenant = .genesis authorizingInput subgroup ∧
      tx.outputs[i]? = some output ∧ output.covenant = some ⟨authorizingInput, covenantId⟩ := by
  obtain ⟨key, indices, hmem, rfl, rfl, -⟩ := hphases.hashed.sound _ _ _ hid
  obtain ⟨rfl, hne⟩ := hphases.collected.get_some (BTreeMap.mem_entries.mp hmem)
  obtain ⟨index, hindex⟩ := List.exists_mem_of_ne_nil _ hne
  obtain ⟨item, hitem, hkey⟩ := List.mem_filterMap.mp (Groups.mem_collect.mp hindex)
  obtain ⟨found, hfound, hpair⟩ := Option.map_eq_some_iff.mp hkey
  obtain ⟨rfl, -⟩ := Prod.mk.inj hpair
  have hsource := List.mem_zipIdx_iff_getElem?.mp hitem
  have hcovenant := declaredGroup_eq_some hfound
  obtain ⟨output, houtput, hbuilt⟩ := outputBuilt hphases hunsigned houtputs hsource
  obtain ⟨authorizer, hashed, -, -, hbinding, hsame⟩ := hbuilt.genesis _ _ hcovenant
  rw [hid] at hsame
  refine ⟨item.2, item.1, output, hsource, hcovenant, houtput, ?_⟩
  rw [Option.some.inj hsame]
  exact hbinding

end

theorem budgetsApart_unsigned {inputs inputs' : List TransactionInput}
    (h : List.Forall₂ BudgetsApart inputs inputs') :
    inputs'.map TransactionInput.unsigned = inputs.map TransactionInput.unsigned := by
  induction h with
  | nil => rfl
  | @cons input input' _ _ hab _ ih =>
    have hhead : input'.unsigned = input.unsigned :=
      congrArg (fun input : TransactionInput => { input with signatureScript := [] }) hab.symm
    rw [List.map_cons, List.map_cons, hhead, ih]

/-- what the passes, signing and execution make of a context -/
theorem build_built {tx : Transaction} (h : builder.build crates context = .ok tx) :
    ∃ bound unsigned stateContext, builder.bindContext context = .ok bound ∧
      Built builder context bound unsigned stateContext tx := by
  obtain ⟨bound, hbind, h⟩ := bind_eq_ok.mp h
  obtain ⟨unsigned, hunsigned, h⟩ := bind_eq_ok.mp h
  obtain ⟨-, h⟩ := check_eq_ok.mp h
  obtain ⟨withArgs, hargs, h⟩ := bind_eq_ok.mp h
  obtain ⟨withObservations, hobserve, h⟩ := bind_eq_ok.mp h
  obtain ⟨withSpawns, hspawn, h⟩ := bind_eq_ok.mp h
  obtain ⟨final, hhidden, h⟩ := bind_eq_ok.mp h
  obtain ⟨scripts, hscripts, h⟩ := bind_eq_ok.mp h
  obtain ⟨entries, -, h⟩ := bind_eq_ok.mp h
  obtain ⟨hbudgets, htx⟩ := executeTransactionWithCovenants_ok h
  obtain ⟨boundOutputs, groups, stateContext, hphases⟩ := TxBuilder.bindContext_phases hbind
  have hframe := unsignedTransaction_ok hbind hunsigned
  have hinputs : tx.inputs.map TransactionInput.unsigned = unsigned.tx.inputs := by
    rw [budgetsApart_unsigned hbudgets, map_unsigned_assignSignatureScripts, hframe.inputs_eq,
      List.map_map]
    rfl
  have houtputs : tx.outputs = unsigned.tx.outputs := by rw [htx]
  obtain ⟨-, hresolved⟩ := passes_ok (bindContext_unfilled hbind) hargs hobserve hspawn hhidden
  have hlength : tx.inputs.length = context.inputs.length := by
    rw [← List.length_map TransactionInput.unsigned, hinputs, hframe.inputs_eq,
      List.length_map]
  refine ⟨bound, unsigned, stateContext, hbind, ?_, by rw [htx]; exact hframe.version_eq,
    by rw [htx]; exact hframe.lockTime_eq, by rw [htx]; exact hframe.subnetworkId_eq,
    by rw [htx]; exact hframe.gas_eq, by rw [htx]; exact hframe.payload_eq, hframe.entries_eq,
    hlength, by rw [houtputs]; exact hframe.length_outputs, fun i source hsource => ?_,
    fun i source hsource => outputBuilt hphases hunsigned houtputs hsource,
    fun _ _ _ hid => genesisCovenantId_built hphases hunsigned houtputs hid⟩
  · unfold Transaction.unsigned
    rw [hinputs, htx]
  · have hi : i < tx.inputs.length := hlength ▸ (List.getElem?_eq_some_iff.mp hsource).1
    have hat := List.getElem?_eq_getElem hi
    have hsame : (tx.inputs[i]).unsigned = source.unsigned := by
      have hget := congrArg (fun inputs => inputs[i]?) (hinputs.trans hframe.inputs_eq)
      rw [List.getElem?_map, List.getElem?_map, hat, hsource] at hget
      exact Option.some.inj hget
    obtain ⟨input, hinput, hstep⟩ := getElem?_of_mapM_ok hphases.inputs_ok hsource
    obtain ⟨last, hlast, hinputResolved⟩ := hresolved i input hinput
    obtain ⟨script, hscript, hsigned⟩ := getElem?_of_mapM_zipIdx hscripts hlast
    refine ⟨_, hat, congrArg TransactionInput.previousOutpoint hsame,
      congrArg TransactionInput.sequence hsame, ?_, ?_⟩
    · rw [hframe.entries_eq, List.getElem?_map, hsource]
      rfl
    · have hi' : i < (assignSignatureScripts unsigned.tx.inputs scripts).length := by
        rw [hbudgets.length_eq]
        exact hi
      have hbudget := hbudgets.get hi' hi
      rw [List.get_eq_getElem, List.get_eq_getElem] at hbudget
      have hassigned := assignSignatureScripts_at hscript (List.getElem?_eq_getElem hi')
      have hkept : tx.inputs[i].signatureScript = script :=
        (congrArg TransactionInput.signatureScript hbudget).symm.trans hassigned
      rw [hkept]
      exact inputSignatureScript_signed hstep hinputResolved hsigned

end

end Argent.Runtime
