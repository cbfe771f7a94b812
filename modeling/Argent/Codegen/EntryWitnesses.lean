import Argent.Base.Firsts
import Argent.Codegen.Templates

/-!
# The witnesses of an entry

`WitnessPlan::new` of `compiler/model/witnesses.rs` as a whole: beside templates and route tables, an
entry passes witnesses for selectors, observed and spawned actors, actor-type values, expanded states
and virtual fields.  What the expressions of a clause are bound to is the work of the resolver and is
given by `SourceBinding`.

* `observedSites`          the observed actors of a clause, an output by the input it repeats;
* `EntryWitnesses`         the planned witnesses;
* `EntryWitnesses.roles`       the hidden parameters, in the order of the ABI.
-/

set_option linter.unusedSectionVars false

namespace Argent.Codegen
open Argent.Model Argent.Fallible

/-! ## what a clause refers to -/

/-- a name as the lexer reads it -/
abbrev Identifier := {name : String // isIdentifier name = true}

inductive ActorSourceBinding where
  | ofLocal (id : Nat)
  | stateField (index : Nat)
deriving DecidableEq, Repr

/-- an actor-type source; its state is the declared type of the field or the parameter -/
inductive ClauseActorTypeRef where
  | stateField (field : Identifier)
  | entryArgument (name : Identifier)
deriving DecidableEq

structure OpenStateField where
  name : Identifier
  virtualSlot : Bool
deriving DecidableEq

/-- a state with the fields of its storage state -/
structure OpenState where
  name : Identifier
  storageFields : List OpenStateField
deriving DecidableEq

/-- what the expression of a foreign actor is bound to -/
inductive SourceBinding where
  | dynamicBinding (binding : ActorSourceBinding) (state : OpenState)
  | actorType (source : ClauseActorTypeRef) (state : OpenState)
  | unbound
deriving DecidableEq

def SourceBinding.openState : SourceBinding → Option OpenState
  | .dynamicBinding _ state | .actorType _ state => some state
  | .unbound => none

def SourceBinding.actorTypeRef : SourceBinding → Option ClauseActorTypeRef
  | .actorType source _ => some source
  | .dynamicBinding _ _ | .unbound => none

/-- the bindings of the expressions in one clause -/
abbrev ClauseBindings := String → SourceBinding

/-- the binding of a target; a fixed actor has none -/
def ClauseBindings.ofTarget (bindings : ClauseBindings) : ActorTarget → SourceBinding
  | .source expression => bindings expression
  | .static _ | .unresolvedStatic _ => .unbound

/-- the actors of a target in the artifact -/
def artifactReferences : ActorTarget → List String
  | .source actor => [actor]
  | .static actors => actors.map staticActorReference
  | .unresolvedStatic actors => actors

/-! ## observed actors -/

inductive ObservedActorSide where
  | input
  | output
deriving DecidableEq, Repr

/-- where the template of an observed actor comes from -/
inductive ObservedTemplateSource where
  | fixedInApp (id : DeclId)
  | fixedLinked (id : LinkedActorId)
  | dynamicBinding
  | actorTypeValue
  | witness
deriving DecidableEq, Repr

structure ObservedActorWitnessSpec where
  observe : String
  side : ObservedActorSide
  handle : String
  actor : String
  source : Option ClauseActorTypeRef
  dynamicBinding : Bool
  templateSource : ObservedTemplateSource
deriving DecidableEq

/-- the witnesses of one clause are shared by what they are bound to -/
inductive ObservedWitnessKey where
  | dynamicBinding (binding : ActorSourceBinding)
  | actorType (source : ClauseActorTypeRef)
  | actor (id : StaticActorId)
  | unbound (handle : String)
deriving DecidableEq

/-- an actor of an `observes` clause on one side -/
abbrev ObservedSite := ObservedActorSide × EntryInteraction

section
variable (bindings : ClauseBindings)

def observedTemplateSource (target : ActorTarget) : ObservedTemplateSource :=
  match target.singleStaticActor with
  | some (.inApp id) => .fixedInApp id
  | some (.linked id) => .fixedLinked id
  | none =>
    match bindings.ofTarget target with
    | .dynamicBinding _ _ => .dynamicBinding
    | .actorType _ _ => .actorTypeValue
    | .unbound => .witness

/-- A fixed actor is written by its reference here; its witness is that of its template. -/
def ObservedActorWitnessSpec.forDecl (observe : String) (site : ObservedSite) :
    ObservedActorWitnessSpec where
  observe := observe
  side := site.1
  handle := site.2.handle
  actor := " | ".intercalate (artifactReferences site.2.target)
  source := (bindings.ofTarget site.2.target).actorTypeRef
  dynamicBinding := match bindings.ofTarget site.2.target with
    | .dynamicBinding _ _ => true
    | .actorType _ _ | .unbound => false
  templateSource := observedTemplateSource bindings site.2.target

def observedWitnessKey (site : ObservedSite) : ObservedActorSide × ObservedWitnessKey :=
  (site.1, match site.2.target.singleStaticActor with
    | some id => .actor id
    | none =>
      match bindings.ofTarget site.2.target with
      | .dynamicBinding binding _ => .dynamicBinding binding
      | .actorType source _ => .actorType source
      | .unbound => .unbound site.2.handle)

/-- whether two actors of a clause are written in the same way -/
def sameActor (left right : EntryInteraction) : Bool :=
  decide (artifactReferences left.target = artifactReferences right.target)

/-- the outputs, each by the input with its actor if there is one, then the other inputs -/
def observedSites (group : CovenantGroup) : List ObservedSite :=
  (group.outputs.items.map fun output =>
    match group.inputs.items.find? fun input => sameActor input output with
    | some input => (.input, input)
    | none => (.output, output)) ++
  (group.inputs.items.filter fun input =>
    !group.outputs.items.any fun output => sameActor output input).map fun input => (.input, input)

/-- the observed actors of one clause, one for each side and binding -/
def observedSpecs (observe : String) (group : CovenantGroup) : List ObservedActorWitnessSpec :=
  (firsts (observedWitnessKey bindings) (observedSites group)).map
    (ObservedActorWitnessSpec.forDecl bindings observe)

end

/-! ## the other witnesses -/

structure SpawnActorWitnessSpec where
  spawn : String
  handle : String
  actor : String
  source : Option ClauseActorTypeRef
deriving DecidableEq

def spawnOutput (bindings : ClauseBindings) (spawn : String) (output : EntryInteraction) :
    Except String SpawnActorWitnessSpec := do
  let actor ← okOr (artifactReferences output.target).head? "spawn output has no actor reference"
  return {
    spawn
    handle := output.handle
    actor
    source := (bindings.ofTarget output.target).actorTypeRef }

inductive ActorTypeSourceWitnessProvider where
  | observed (spec : ObservedActorWitnessSpec)
  | spawn (spec : SpawnActorWitnessSpec)
deriving DecidableEq

structure ActorTypeSourceWitnessSpec where
  source : ClauseActorTypeRef
  form : TemplateWitnessForm
  provider : ActorTypeSourceWitnessProvider
deriving DecidableEq

/-- an input is read by the lengths of its template, an output is written with the template -/
def ObservedActorSide.form : ObservedActorSide → TemplateWitnessForm
  | .input => .len
  | .output => .bytes

/-- the templates of actor-type values, one for each value and form -/
def actorTypeSourceTemplates (observed : List ObservedActorWitnessSpec)
    (spawned : List SpawnActorWitnessSpec) : List ActorTypeSourceWitnessSpec :=
  firsts (fun spec => (spec.source, spec.form))
    ((observed.filterMap fun spec => spec.source.map fun source =>
        ⟨source, spec.side.form, .observed spec⟩) ++
      spawned.filterMap fun spec => spec.source.map fun source => ⟨source, .bytes, .spawn spec⟩)

/-- a digest field of an expanded state and the state that it stands for -/
structure DigestExpansion where
  field : Identifier
  memoryState : Identifier
  packedLen : Nat
deriving DecidableEq

structure StateExpansionWitnessSpec where
  state : String
  field : String
  memoryState : String
  packedLen : Nat
deriving DecidableEq, Repr

structure ObservedOutputFieldWitnessSpec where
  observe : String
  handle : String
  state : String
  field : String
deriving DecidableEq, Repr

/-- the virtual fields of an observed output whose state is open -/
def outputFields (bindings : ClauseBindings) (observe : String) (output : EntryInteraction) :
    List ObservedOutputFieldWitnessSpec :=
  match (bindings.ofTarget output.target).openState with
  | none => []
  | some state => (state.storageFields.filter (·.virtualSlot)).map fun field =>
      ⟨observe, output.handle, state.name.1, field.name.1⟩

/-! ## the plan -/

structure EntryWitnesses extends WitnessPlan where
  selectors : List TemplateSelector
  observedActors : List ObservedActorWitnessSpec
  spawnOutputs : List SpawnActorWitnessSpec
  actorTypeSourceTemplates : List ActorTypeSourceWitnessSpec
  stateExpansions : List StateExpansionWitnessSpec
  observedOutputFields : List ObservedOutputFieldWitnessSpec

section
variable (bindings : String → ClauseBindings) (entry : EntryModel)

/-- the observed actors of all clauses -/
def entryObserved : List ObservedActorWitnessSpec :=
  entry.existingGroups.flatMap fun group =>
    observedSpecs (bindings group.1.name) group.1.name group.2

def entrySpawnOutputs : Except String (List SpawnActorWitnessSpec) :=
  (entry.genesisGroups.flatMap fun group =>
      group.2.outputs.items.map fun output => (group.1.name, output)).mapM
    fun site => spawnOutput (bindings site.1) site.1 site.2

def entryOutputFields : List ObservedOutputFieldWitnessSpec :=
  firsts id (entry.existingGroups.flatMap fun group =>
    group.2.outputs.items.flatMap (outputFields (bindings group.1.name) group.1.name))

/-- `bindings` are those of the clauses by their names, `digests` the expansion of the state -/
def entryWitnesses (app : App) (plan : CompilerRoutePlan) (actor : ActorModel)
    (digests : List DigestExpansion) : Except String EntryWitnesses := do
  let witnesses ← witnessPlan app plan actor entry
  let spawnOutputs ← entrySpawnOutputs bindings entry
  let observed := entryObserved bindings entry
  return {
    toWitnessPlan := witnesses
    selectors := entry.templateSelectors
    observedActors := observed.filter fun spec =>
      spec.templateSource = .dynamicBinding ∨ spec.templateSource = .witness
    spawnOutputs
    actorTypeSourceTemplates := Codegen.actorTypeSourceTemplates
      (observed.filter fun spec => spec.templateSource = .actorTypeValue) spawnOutputs
    stateExpansions := digests.map fun digest =>
      ⟨actor.state, digest.field.1, digest.memoryState.1, digest.packedLen⟩
    observedOutputFields := entryOutputFields bindings entry }

end

/-! ## roles -/

/-- the two parts of a template around its state -/
inductive WitnessPart where
  | leading
  | trailing
deriving DecidableEq, Repr

/-- a hidden parameter, by the planned witness that it passes -/
inductive WitnessRole where
  | template (spec : TemplateWitnessSpec) (part : WitnessPart)
  | routeFamily (family : RouteFamily)
  | selector (selector : TemplateSelector) (part : WitnessPart)
  | observed (spec : ObservedActorWitnessSpec) (part : WitnessPart)
  /-- the template hash of an input that is bound dynamically -/
  | observedHash (spec : ObservedActorWitnessSpec)
  | spawnIndex (spec : SpawnActorWitnessSpec)
  | actorType (spec : ActorTypeSourceWitnessSpec) (part : WitnessPart)
  | stateExpansion (spec : StateExpansionWitnessSpec)
  | observedOutputField (spec : ObservedOutputFieldWitnessSpec)
deriving DecidableEq

/-- a role for each part -/
def bothParts (role : WitnessPart → WitnessRole) : List WitnessRole :=
  [role .leading, role .trailing]

theorem mem_bothParts {role : WitnessPart → WitnessRole} (part : WitnessPart) :
    role part ∈ bothParts role := by
  cases part with
  | leading => exact List.mem_cons_self
  | trailing => exact List.mem_cons_of_mem _ List.mem_cons_self

/-- the roles of an observed actor -/
def observedRoles (spec : ObservedActorWitnessSpec) : List WitnessRole :=
  bothParts (.observed spec) ++
    if spec.side = .input ∧ spec.dynamicBinding = true then [.observedHash spec] else []

/-- `assign_roles`: the entry's own actor needs no template -/
def EntryWitnesses.roles (witnesses : EntryWitnesses) (source : DeclId) : List WitnessRole :=
  (witnesses.templates.filter fun spec => decide (spec.id ≠ .inApp source)).flatMap
      (fun spec => bothParts (.template spec)) ++
    witnesses.families.map .routeFamily ++
    witnesses.selectors.flatMap (fun selector => bothParts (.selector selector)) ++
    witnesses.observedActors.flatMap observedRoles ++
    witnesses.spawnOutputs.map .spawnIndex ++
    witnesses.actorTypeSourceTemplates.flatMap (fun spec => bothParts (.actorType spec)) ++
    witnesses.stateExpansions.map .stateExpansion ++
    witnesses.observedOutputFields.map .observedOutputField

end Argent.Codegen
