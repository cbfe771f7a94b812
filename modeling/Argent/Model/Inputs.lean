import Argent.Model.Entry

/-!
# Input plans

`compiler/model/inputs.rs` and `compute_leader_for` of `compiler/model/build.rs`: how an entry
authenticates the inputs it names and where it may stand among the inputs of its covenant.  Which
fields an authored expression may read is left out.

* `App.isLeaderActor`            the actors that some delegate names as its leader;
* `CurrentInputGroupPolicy`      the position and count rule of an entry;
* `entryInputPlan`               the policy and the authenticated references of an entry.
-/

set_option linter.unusedSectionVars false

namespace Argent.Model

/-! ## leaders -/

/-- the actor of the first consumed input, which leads a delegate -/
def EntryModel.leader (entry : EntryModel) : Option DeclId :=
  match entry.current.inputs.items.head?.bind (·.target.singleStaticActor) with
  | some (.inApp id) => some id
  | some (.linked _) | none => none

/-- whether the entry is a delegate of the leader actor -/
def EntryModel.isDelegateFor (entry : EntryModel) (leader : DeclId) : Bool :=
  decide (entry.kind = .delegate) && decide (entry.leader = some leader)

/-- the delegate entries that the actor leads, as `compute_leader_for` lists them -/
def App.leaderFor (app : App) (leader : DeclId) : List (DeclId × String) :=
  app.actors.flatMap fun actor =>
    (actor.entries.filter (·.isDelegateFor leader)).map fun entry => (actor.name, entry.name)

/-- whether an actor leads at least one delegate entry -/
def App.isLeaderActor (app : App) (actor : DeclId) : Bool := !(app.leaderFor actor).isEmpty

theorem App.isLeaderActor_iff {app : App} {leader : DeclId} : app.isLeaderActor leader = true ↔
    ∃ actor ∈ app.actors, ∃ entry ∈ actor.entries, entry.isDelegateFor leader = true := by
  unfold App.isLeaderActor App.leaderFor
  rw [Bool.not_eq_true', ← Bool.not_eq_true, List.isEmpty_iff, List.flatMap_eq_nil_iff]
  simp only [List.map_eq_nil_iff, List.filter_eq_nil_iff]
  push Not
  rfl

/-! ## policies -/

/-- current covenant input checks -/
inductive CurrentInputGroupPolicy where
  | batchable
  | leaderRanged
  | leaderFixed (count : Nat)
  | delegate (minimumCount : Nat)
deriving DecidableEq, Repr

/-- the position of the first consumed input: a leader stands before them -/
def CurrentInputGroupPolicy.slotOffset : CurrentInputGroupPolicy → Nat
  | delegate _ => 0
  | batchable | leaderRanged | leaderFixed _ => 1

section
variable (app : App) (actor : ActorModel) (entry : EntryModel)

def allowsCovenantBatching : Bool :=
  decide (entry.kind = .leader) && entry.current.inputs.items.isEmpty &&
    !app.isLeaderActor actor.name

def currentGroupPolicy : CurrentInputGroupPolicy :=
  let inputs := entry.current.inputs.items
  if allowsCovenantBatching app actor entry then .batchable
  else
    match entry.kind with
    | .leader =>
      if inputs.any (·.cardinality.isRange) then .leaderRanged
      else .leaderFixed (inputs.length + 1)
    | .delegate => .delegate (inputs.length + 1)

/-- A leader entry that may create no output cannot replace a delegate at a consumed position. -/
def requiresOptionalDelegateGuard : Bool :=
  allowsCovenantBatching app actor entry &&
    actor.entries.any (fun candidate => decide (candidate.kind = .delegate)) &&
    entry.current.outputs.items.all fun interaction =>
      interaction.cardinality.rangeBounds.any fun bounds => decide (bounds.minimum = 0)

/-! ## references -/

inductive InputAuthentication where
  | covenantDomain
  | template
deriving DecidableEq, Repr

inductive InputReferenceOrigin where
  | consumed (handle : String)
  | observed (observe handle : String)
deriving DecidableEq, Repr

/-- an authenticated input; an open state binding has no fixed target -/
structure InputReference where
  origin : InputReferenceOrigin
  target : Option StaticActorId
  authentication : InputAuthentication
  location : InteractionLocation
  /-- present in every transaction that passes the cardinality checks -/
  guaranteed : Bool
deriving DecidableEq, Repr

/-- a singleton app's own actor needs no template -/
def inputAuthentication : StaticActorId → InputAuthentication
  | .inApp id =>
    if app.isSingletonActorSelfTarget actor.name id then .covenantDomain else .template
  | .linked _ => .template

def consumedReference (interaction : EntryInteraction) : Except String InputReference :=
  match interaction.target.singleStaticActor with
  | none => .error s!"entry `{actor.name}::{entry.name}` has a non-static consumed actor"
  | some target => .ok {
      origin := .consumed interaction.handle
      target := some target
      authentication := inputAuthentication app actor target
      location := interaction.location
      guaranteed := interaction.cardinality.rangeBounds.all fun bounds => decide (0 < bounds.minimum) }

def observedReference (observe : ObserveDecl) (interaction : EntryInteraction) :
    Except String InputReference :=
  match interaction.target with
  | .source _ => .ok {
      origin := .observed observe.name interaction.handle
      target := none
      authentication := .template
      location := interaction.location
      guaranteed := true }
  | .static [target] => .ok {
      origin := .observed observe.name interaction.handle
      target := some target
      authentication := inputAuthentication app actor target
      location := interaction.location
      guaranteed := true }
  | .static _ | .unresolvedStatic _ =>
    .error (s!"actor `{actor.name}` has no observed input state target plan for " ++
      s!"`{interaction.handle}`")

/-- the first range that code generation does not support -/
def unsupportedRange : Option String :=
  let ranges := fun (section_ : InteractionSection) =>
    section_.items.filter (·.cardinality.isRange)
  let consumed := (ranges entry.current.inputs).filter fun _ => decide (entry.kind = .delegate)
  let emitted := (ranges entry.current.outputs).filter fun interaction =>
    interaction.target.singleStaticActor.isNone
  let foreign := entry.foreign.flatMap fun group => ranges group.inputs ++ ranges group.outputs
  ((consumed.map fun interaction =>
      s!"delegate `{actor.name}::{entry.name}` cannot use range `{interaction.handle}` in " ++
        "`consumes` yet") ++
    (emitted.map fun interaction =>
      s!"entry `{actor.name}::{entry.name}` range output `{interaction.handle}` must use one " ++
        "fixed actor target in this compiler version") ++
    foreign.map fun interaction =>
      s!"entry `{actor.name}::{entry.name}` declares range `{interaction.handle}`, but range " ++
        "code generation is not implemented yet").head?

structure EntryInputPlan where
  /-- the consumed inputs in order, with their references -/
  consumed : List (EntryInteraction × InputReference)
  observed : List InputReference
  currentGroupPolicy : CurrentInputGroupPolicy
  requiresOptionalDelegateGuard : Bool
deriving DecidableEq

def entryInputPlan : Except String EntryInputPlan := do
  match unsupportedRange actor entry with
  | some message => .error message
  | none =>
    let consumed ← entry.current.inputs.items.mapM fun interaction => do
      return (interaction, ← consumedReference app actor entry interaction)
    let observed ← entry.existingGroups.mapM fun group =>
      group.2.inputs.items.mapM (observedReference app actor group.1)
    return {
      consumed
      observed := observed.flatten
      currentGroupPolicy := currentGroupPolicy app actor entry
      requiresOptionalDelegateGuard := requiresOptionalDelegateGuard app actor entry }

end

/-- the first input that is always present and proves the target's template -/
def EntryInputPlan.firstAuthenticatedTemplate (plan : EntryInputPlan) (target : StaticActorId) :
    Option InputReference :=
  (plan.consumed.map Prod.snd ++ plan.observed).find? fun reference =>
    reference.guaranteed && decide (reference.authentication = .template) &&
      decide (reference.target = some target)

end Argent.Model
