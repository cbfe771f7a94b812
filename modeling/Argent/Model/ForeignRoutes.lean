import Argent.Base.BTree
import Argent.Model.Entry

/-!
# Routes of foreign covenants

The binding of foreign routes (`compiler/model/entry.rs`), the check that they cover the outputs of
their covenants (`compiler/model/validate.rs`) and their order in the lowered body
(`codegen/sil/body.rs`).  What the resolver knows of an entry is an input; statements, clauses and
routes are found at their source sites.

* `walk`                                the work list over the statements of a body;
* `bindForeignRoutes`                   the covenant group of each statement, the output of each route;
* `validateForeignRouteCoverage`        spawns are validated once, and every group covers its outputs;
* `directForeignBecome`                 the outputs that a lowered statement validates.
-/

set_option linter.unusedSectionVars false

namespace Argent.Model
open Argent.Fallible

/-! ## source sites -/

inductive ChildEdge where
  | body
  | statement (index : Nat)
  | thenBranch
  | elseBranch
  | foreignGroup
  | observe (index : Nat)
  | observedInput (index : Nat)
  | observedOutput (index : Nat)
  | spawn (index : Nat)
  | spawnOutput (index : Nat)
  | actorTarget
deriving DecidableEq, Repr

/-- a node of an entry, by the edges that lead to it -/
abbrev SourceNodeCursor := List ChildEdge

def SourceNodeCursor.child (cursor : SourceNodeCursor) (edge : ChildEdge) : SourceNodeCursor :=
  cursor ++ [edge]

abbrev NodeId := Nat
abbrev LocalId := Nat

/-! ## groups and interactions -/

/-- the position of a covenant clause in its entry -/
inductive CovenantGroupId where
  | current
  | existing (index : Nat)
  | genesis (index : Nat)
deriving DecidableEq, Repr

inductive InteractionId where
  | currentInput (index : Nat)
  | currentOutput (index : Nat)
  | observedInput (observe input : Nat)
  | observedOutput (observe output : Nat)
  | spawnedOutput (spawn output : Nat)
deriving DecidableEq, Repr

/-- the output at an index of a group -/
def CovenantGroupId.output : CovenantGroupId → Nat → InteractionId
  | current, index => .currentOutput index
  | existing observe, index => .observedOutput observe index
  | genesis spawn, index => .spawnedOutput spawn index

/-- the node of the actor that an observed or spawned interaction declares -/
def InteractionId.actorTargetCursor : InteractionId → Except String SourceNodeCursor
  | observedInput observe input => .ok [.observe observe, .observedInput input, .actorTarget]
  | observedOutput observe output => .ok [.observe observe, .observedOutput output, .actorTarget]
  | spawnedOutput spawn output => .ok [.spawn spawn, .spawnOutput output, .actorTarget]
  | currentInput _ | currentOutput _ =>
    .error "current entry interaction has no actor target site"

def EntryModel.group (entry : EntryModel) : CovenantGroupId → Option CovenantGroup
  | .current => some entry.current
  | .existing index => (entry.existingGroups[index]?).map Prod.snd
  | .genesis index => (entry.genesisGroups[index]?).map Prod.snd

/-- the spawn clause of a genesis group -/
def CovenantGroup.isSpawn (group : CovenantGroup) : Bool :=
  match group.covenant with
  | .genesis _ => true
  | .current | .existing _ => false

def CovenantGroup.label (group : CovenantGroup) : String :=
  if group.isSpawn then "spawn" else "observe"

/-- the identities of the outputs of a group, in its order -/
def CovenantGroup.outputIds (group : CovenantGroup) (id : CovenantGroupId) : List InteractionId :=
  (List.range group.outputs.items.length).map id.output

/-- the output of a group with an identity -/
def CovenantGroup.findOutput (group : CovenantGroup) (id : CovenantGroupId)
    (output : InteractionId) : Option EntryInteraction := do
  let index ← (group.outputIds id).findIdx? fun candidate => candidate = output
  group.outputs.items[index]?

/-! ## bindings -/

inductive ResolvedName where
  | declaration (id : DeclId)
  | appMember (member : LinkedActorId)
deriving DecidableEq, Repr

inductive Binding where
  | source (name : ResolvedName)
  | enumVariant (enumeration actor : DeclId)
  | local (id : LocalId)
  | actorField
  | actorHelper (index : Nat)
  | clauseMember
  | builtin
  | runtimeRoot
deriving DecidableEq, Repr

/-- the declaration that supplies a dynamic actor target -/
inductive ActorSourceBinding where
  | local (id : LocalId)
  | stateField (index : Nat)
deriving DecidableEq, Repr

/-- a simple reference with its authored field or parameter position -/
inductive ClauseReference where
  | stateField (name : String) (index : Option Nat)
  | entryArgument (name : String) (index : Nat)
  | bareStateField (name : String) (index : Nat)
  | bare (name : String)
deriving DecidableEq, Repr

/-- what the resolver knows of an entry -/
structure EntryBindings where
  /-- the indexed nodes -/
  find : SourceNodeCursor → Option NodeId
  /-- the actor and the state of a route -/
  routeSites : Nat → Option (NodeId × NodeId)
  sites : NodeId → Option Binding
  /-- the locals of the `observes` clauses, and of the `spawns` clauses -/
  entryObserves : List (Nat × LocalId)
  entrySpawns : List (Nat × LocalId)
  actorTargets : NodeId → Option ResolvedName
  localActorTargets : NodeId → Option ActorSourceBinding
  routeActorReferences : NodeId → Option (Option ClauseReference)
  isActor : DeclId → Bool
  memberDisplayName : LinkedActorId → String
  /-- the source text of a declared actor, and of the actor of a route -/
  actorText : InteractionId → String
  targetText : Nat → String

def EntryBindings.actorTargetSite (bindings : EntryBindings) (id : InteractionId) :
    Except String NodeId := do
  let cursor ← id.actorTargetCursor
  okOr (bindings.find cursor) "entry actor target has no indexed source site"

/-- the clause that a local stands for -/
def EntryBindings.groupOf (bindings : EntryBindings) (binding : LocalId) : Option CovenantGroupId :=
  (bindings.entryObserves.findSome? fun clause =>
    if clause.2 = binding then some (.existing clause.1) else none).or
  (bindings.entrySpawns.findSome? fun clause =>
    if clause.2 = binding then some (.genesis clause.1) else none)

/-! ## the work list -/

/-- a statement that is still to be visited; it is unconditional outside of every branch -/
structure PendingStatement where
  statement : AuthoredEntryStatement
  cursor : SourceNodeCursor
  unconditional : Bool

def pendingStatements (statements : List AuthoredEntryStatement) (cursor : SourceNodeCursor)
    (unconditional : Bool) : List PendingStatement :=
  statements.zipIdx.map fun item => ⟨item.1, cursor.child (.statement item.2), unconditional⟩

mutual

def statementSize : AuthoredEntryStatement → Nat
  | .block statements => 1 + sequenceSize statements
  | .ifElse _ thenBranch elseBranch => 1 + statementSize thenBranch + optionalSize elseBranch
  | .become _ | .foreignBecome _ _ | .sil _ => 1

def optionalSize : Option AuthoredEntryStatement → Nat
  | none => 0
  | some statement => statementSize statement

def sequenceSize : List AuthoredEntryStatement → Nat
  | [] => 0
  | statement :: statements => statementSize statement + sequenceSize statements

end

def pendingSize : List PendingStatement → Nat
  | [] => 0
  | item :: pending => statementSize item.statement + pendingSize pending

theorem pendingSize_append (first second : List PendingStatement) :
    pendingSize (first ++ second) = pendingSize first + pendingSize second := by
  induction first with
  | nil => rw [List.nil_append, pendingSize, Nat.zero_add]
  | cons item first ih => rw [List.cons_append, pendingSize, pendingSize, ih, Nat.add_assoc]

theorem pendingSize_pendingStatements (statements : List AuthoredEntryStatement)
    (cursor : SourceNodeCursor) (unconditional : Bool) :
    pendingSize (pendingStatements statements cursor unconditional) = sequenceSize statements := by
  have hfrom : ∀ index, pendingSize ((statements.zipIdx index).map fun item =>
      ⟨item.1, cursor.child (.statement item.2), unconditional⟩) = sequenceSize statements := by
    induction statements with
    | nil => intro index; rw [sequenceSize]; rfl
    | cons statement statements ih =>
      intro index
      rw [List.zipIdx_cons, List.map_cons, pendingSize, ih, sequenceSize]
  exact hfrom 0

/-- a `become` of a foreign group, where it stands -/
structure ForeignStatement where
  cursor : SourceNodeCursor
  group : String
  routes : List EntryRoute
deriving DecidableEq, Repr

/-- the branches of an `if`, the first on top -/
def pendingBranches (thenBranch : AuthoredEntryStatement)
    (elseBranch : Option AuthoredEntryStatement) (cursor : SourceNodeCursor) :
    List PendingStatement :=
  ⟨thenBranch, cursor.child .thenBranch, false⟩ ::
    (elseBranch.map fun branch => ⟨branch, cursor.child .elseBranch, false⟩).toList

theorem pendingSize_pendingBranches (thenBranch : AuthoredEntryStatement)
    (elseBranch : Option AuthoredEntryStatement) (cursor : SourceNodeCursor) :
    pendingSize (pendingBranches thenBranch elseBranch cursor) =
      statementSize thenBranch + optionalSize elseBranch := by
  cases elseBranch with
  | none => rw [optionalSize]; rfl
  | some branch => rw [optionalSize]; rfl

/-- visit the foreign statements of a stack of pending statements -/
def walk {σ : Type} (visit : σ → ForeignStatement → Bool → Except String σ) (state : σ) :
    List PendingStatement → Except String σ
  | [] => .ok state
  | ⟨.block statements, cursor, unconditional⟩ :: pending =>
    walk visit state (pendingStatements statements cursor unconditional ++ pending)
  | ⟨.ifElse _ thenBranch elseBranch, cursor, _⟩ :: pending =>
    walk visit state (pendingBranches thenBranch elseBranch cursor ++ pending)
  | ⟨.foreignBecome group routes, cursor, unconditional⟩ :: pending => do
    let state ← visit state ⟨cursor, group, routes⟩ unconditional
    walk visit state pending
  | ⟨.become _, _, _⟩ :: pending => walk visit state pending
  | ⟨.sil _, _, _⟩ :: pending => walk visit state pending
termination_by pending => pendingSize pending
decreasing_by
  all_goals
    simp only [pendingSize_append, pendingSize, pendingSize_pendingStatements,
      pendingSize_pendingBranches, statementSize]
    omega

/-! ## binding -/

/-- the covenant groups of foreign statements, and the outputs of routes -/
structure BoundRoutes where
  foreignGroups : BTreeMap NodeId CovenantGroupId
  routeOutputs : BTreeMap Nat (CovenantGroupId × InteractionId)

section
variable (entry : EntryModel) (bindings : EntryBindings)

/-- the first output with the handle of the route -/
def bindRouteOutput (id : CovenantGroupId) (group : CovenantGroup) (name : String)
    (route : EntryRoute) : Except String (Nat × InteractionId) :=
  match group.outputs.items.findIdx? fun output => output.handle = route.output with
  | some index => .ok (route.id, id.output index)
  | none => .error s!"{group.label} `{name}` has no output `{route.output}`"

def bindForeignBecome (bound : BoundRoutes) (statement : ForeignStatement) :
    Except String BoundRoutes := do
  let site ← okOr (bindings.find (statement.cursor.child .foreignGroup))
    "foreign output route has no indexed group"
  match bindings.sites site with
  | some (.local binding) =>
    match bindings.groupOf binding with
    | none => return bound
    | some id =>
      let group ← okOr (entry.group id) "foreign route has no covenant group"
      let outputs ← statement.routes.mapM (bindRouteOutput id group statement.group)
      return {
        foreignGroups := bound.foreignGroups.insert site id
        routeOutputs := outputs.foldl (fun map route => map.insert route.1 (id, route.2))
          bound.routeOutputs }
  | _ => return bound

/-- bind the foreign routes of an entry, beside its own -/
def bindForeignRoutes (routeOutputs : BTreeMap Nat (CovenantGroupId × InteractionId)) :
    Except String BoundRoutes :=
  walk (fun bound statement _ => bindForeignBecome entry bindings bound statement) ⟨∅, routeOutputs⟩
    (pendingStatements entry.body [.body] true)

/-! ## coverage -/

/-- whether the actor of a route is the actor that its output declares, by their sites -/
def sameTarget (outputSite targetSite : NodeId) : Bool :=
  match bindings.actorTargets outputSite, bindings.localActorTargets outputSite,
    bindings.sites targetSite, (bindings.routeActorReferences targetSite).join with
  | some expected, none, some (.source actual), _ => expected = actual
  | some (.declaration expected), none, some (.enumVariant _ actor), _ => expected = actor
  | none, some (.local expected), some (.local actual), _ => expected = actual
  | none, some (.stateField expected), _, some (.stateField _ (some actual)) => expected = actual
  | none, some (.stateField expected), some .actorField, some (.bareStateField _ actual) =>
    expected = actual
  | _, _, _, _ => false

/-- the name of a route's actor in a message -/
def targetName (targetSite : NodeId) (route : EntryRoute) : String :=
  match bindings.sites targetSite with
  | some (.source (.declaration id)) =>
    if bindings.isActor id then id else bindings.targetText route.id
  | some (.source (.appMember member)) => bindings.memberDisplayName member
  | some (.enumVariant _ actor) => actor
  | _ => bindings.targetText route.id

/-- a route of a group, after those that validated the outputs `seen` -/
def validateForeignRoute (bound : BoundRoutes) (id : CovenantGroupId) (group : CovenantGroup)
    (name : String) (seen : List InteractionId) (route : EntryRoute) :
    Except String (List InteractionId) := do
  let label := group.label
  let missing := s!"{label} `{name}` has no output `{route.output}`"
  let (routeGroup, outputId) ← okOr (bound.routeOutputs.get route.id) missing
  rejectIf (routeGroup ≠ id) "foreign route output belongs to another covenant group"
  let output ← okOr (group.findOutput id outputId) missing
  rejectIf (outputId ∈ seen)
    s!"{label} `{name}` validates output `{route.output}` more than once"
  match route.successor with
  | .exactSelf => .error s!"cannot use exact successor `self` for observe or spawn `{name}` outputs"
  | .constructed _ arity _ =>
    rejectIf (output.cardinality.isRange = false ∧ arity = .many)
      (s!"{label} `{name}` singleton output `{route.output}` must use scalar become syntax " ++
        s!"`{route.output} <- Actor(state)`")
    let outputSite ← bindings.actorTargetSite outputId
    let (targetSite, _) ← okOr (bindings.routeSites route.id)
      "foreign route has no indexed actor target"
    rejectIf (sameTarget bindings outputSite targetSite = false)
      (s!"{label} `{name}` output `{route.output}` expects `{bindings.actorText outputId}`, but " ++
        s!"route uses `{targetName bindings targetSite route}`")
    return outputId :: seen

/-- a spawn is validated outside of every branch, and once -/
def recordSpawn (id : CovenantGroupId) (group : CovenantGroup) (name : String)
    (unconditional : Bool) (validated : List CovenantGroupId) :
    Except String (List CovenantGroupId) := do
  if group.isSpawn then
    rejectIf (unconditional = false) s!"spawn `{name}` output validation must be unconditional"
    rejectIf (id ∈ validated) s!"spawn `{name}` outputs are validated more than once"
    return id :: validated
  else return validated

/-- the outputs that no route of the statement validates -/
def requireCovered (id : CovenantGroupId) (group : CovenantGroup) (name : String)
    (seen : List InteractionId) : Except String PUnit.{1} :=
  match (group.outputs.items.zip (group.outputIds id)).find? fun output => output.2 ∉ seen with
  | none => .ok ⟨⟩
  | some output => .error s!"{group.label} `{name}` does not validate output `{output.1.handle}`"

def validateForeignBecome (bound : BoundRoutes) (validated : List CovenantGroupId)
    (statement : ForeignStatement) (unconditional : Bool) :
    Except String (List CovenantGroupId) := do
  let site ← okOr (bindings.find (statement.cursor.child .foreignGroup))
    "foreign output route has no indexed group"
  let id ← okOr (bound.foreignGroups.get site) s!"unknown observe or spawn `{statement.group}`"
  let group ← okOr (entry.group id) "foreign route has no covenant group"
  let validated ← recordSpawn id group statement.group unconditional validated
  let seen ← statement.routes.foldlM
    (validateForeignRoute bindings bound id group statement.group) []
  requireCovered id group statement.group seen
  return validated

def requireSpawnValidated (validated : List CovenantGroupId) (clause : SpawnDecl × Nat) :
    Except String PUnit.{1} :=
  rejectIf (.genesis clause.2 ∉ validated)
    s!"spawn `{clause.1.name}` must be validated with `require {clause.1.name}.outputs become`"

/-- check foreign covenant routes before witnesses and temporary names are chosen -/
def validateForeignRouteCoverage (bound : BoundRoutes) : Except String PUnit.{1} := do
  let validated ← walk (validateForeignBecome entry bindings bound) []
    (pendingStatements entry.body [.body] true)
  (entry.genesisGroups.map Prod.fst).zipIdx.forM (requireSpawnValidated validated)

/-! ## lowering -/

/-- an output that a lowered statement validates, against the actor of its clause -/
structure ForeignValidation where
  output : InteractionId
  target : ActorTarget
  state : AuthoredExpr
deriving DecidableEq

def directForeignRoute (bound : BoundRoutes) (id : CovenantGroupId) (group : CovenantGroup)
    (route : EntryRoute) : Option ForeignValidation := do
  let (routeGroup, outputId) ← bound.routeOutputs.get route.id
  if routeGroup ≠ id then none
  else
    let output ← group.findOutput id outputId
    match route.successor with
    | .constructed _ .one state => some ⟨outputId, output.target, state⟩
    | .constructed _ .many _ | .exactSelf => none

def directForeignBecome (bound : BoundRoutes) (statement : ForeignStatement) :
    Option (List ForeignValidation) := do
  let site ← bindings.find (statement.cursor.child .foreignGroup)
  let id ← bound.foreignGroups.get site
  let group ← entry.group id
  statement.routes.mapM (directForeignRoute bound id group)

end

end Argent.Model
