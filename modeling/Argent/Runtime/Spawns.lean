import Argent.Runtime.Bind

/-!
# Resolution of spawns

Each spawn clause of an input's entry is matched to the genesis group of its name, position by
position, before hidden arguments are resolved.

* `namedGenesisGroup`      the outputs of one group;
* `TxBuilder.spawnTargetMatches`      whether an actor is what a clause declares;
* `TxBuilder.resolveContextSpawns`      all clauses of all inputs.
-/

set_option linter.unusedSectionVars false

namespace Argent.Runtime
open Argent.Fallible Argent.Sil Argent.Artifacts

def ResolvedOutputBinding.isIn (key : GenesisGroupKey) : ResolvedOutputBinding → Bool
  | .genesis binding group =>
    binding.authorizingInput == key.authorizingInput && group == key.name
  | _ => false

/-- the positions of the outputs of a group, none without any -/
def namedGenesisGroup (context : ResolveContext) (key : GenesisGroupKey) : Option (List Nat) :=
  let outputIndices :=
    (context.outputs.zipIdx.filter fun item => item.1.binding.isIn key).map (·.2)
  if outputIndices = [] then none else some outputIndices

/-- `text.strip_prefix(leading)` -/
def stripPrefix (leading text : String) : Option String :=
  if leading.toList.isPrefixOf text.toList then
    some (String.ofList (text.toList.drop leading.toList.length))
  else none

def invalidTransition (input : ResolveActorInput) (message : String) : Fault BuilderError :=
  .error (.invalidTransition input.source.actor.text input.source.entry.name message)

/-- the value of a spawn actor expression, a state field or an entry argument -/
def spawnActorValue (input : ResolveActorInput) (args : ResolvedEntryArgs) (actor : String) :
    Option ArtifactValue :=
  match stripPrefix "self." actor with
  | some field => input.source.state.get field
  | none => ((input.silEntry.params.take args.values.length).findIdx? fun param : ParamArtifact =>
      param.name == actor).bind fun index => args.values[index]?

/-- the handle that a spawn actor expression stands for -/
def dynamicSpawnActorTypeHandle (input : ResolveActorInput) (actor : String) :
    BuilderResult Bytes := do
  let args ← expect input.args "argument resolution precedes spawn resolution"
  match spawnActorValue input args actor with
  | some (.bytes handle) => do
    rejectIf (handle.length ≠ 32) (invalidTransition input
      ("spawn actor expression `" ++ actor ++ "` resolved to " ++ toString handle.length ++
        " bytes, expected 32"))
    pure handle
  | _ => .error (invalidTransition input
      ("spawn actor expression `" ++ actor ++ "` does not resolve to an actor-type handle"))

def invalidSpawnGroup (spawn : SpawnArtifact) (message : String) : Fault BuilderError :=
  .error (.invalidSpawnGroup spawn.name message)

def actorLabelOf (actor : ContractRef) : String :=
  artifactAppAlias actor.artifact.app ++ "::" ++ actor.name

/-- the handle of an actor under the state of a clause -/
def exposedHandle (spawn : SpawnArtifact) (output : SpawnOutputArtifact) (actor : ContractRef) :
    BuilderResult Bytes :=
  match actorTypeHandleInArtifact actor.artifact actor.name output.state with
  | .ok handle => .ok handle
  | .error (.error (.missingActorTypeHandle _ _)) => .error (invalidSpawnGroup spawn
      ("output `" ++ output.name ++ "` actor `" ++ actorLabelOf actor ++
        "` does not expose actor_type<" ++ output.state ++ ">"))
  | .error e => .error e

namespace TxBuilder
variable {crates : RuntimeCrates} (builder : TxBuilder crates)

/-- whether an actor is the one that a clause declares at an output: a canonical target, an actor
of the input's own app, or the actor that an expression stands for -/
def spawnTargetMatches (input : ResolveActorInput) (spawn : SpawnArtifact)
    (output : SpawnOutputArtifact) (actor : ContractRef) : BuilderResult Bool :=
  match output.target with
  | some (.staticActor app targetActor) => do
    let expected ← builder.bundle.observedContractRef input.artifact app targetActor
    pure (actor.artifact.app == expected.artifact.app && actor.name == expected.name &&
      actor.contract.compiled.templateHash == expected.contract.compiled.templateHash)
  | _ =>
    if input.artifact.argent.actors.any fun actor => actor.name == output.actor then do
      let expected ← contractInArtifact input.artifact output.actor
      pure (actor.contract.compiled.templateHash == expected.compiled.templateHash)
    else do
      let expected ← dynamicSpawnActorTypeHandle input output.actor
      let found ← exposedHandle spawn output actor
      pure (found == expected)

/-- one output of a clause and the output of the transaction at its position in the group -/
def resolveSpawnOutput (context : ResolveContext) (input : ResolveActorInput)
    (spawn : SpawnArtifact) (spawnedActors : ResolvedSpawnActors)
    (item : SpawnOutputArtifact × Nat) : BuilderResult ResolvedSpawnActors := do
  let (output, outputIndex) := item
  let resolvedOutput ← expect context.outputs[outputIndex]? "index out of bounds"
  match resolvedOutput.owner with
  | .spk _ => .error (invalidSpawnGroup spawn ("output `" ++ output.name ++
      "` at transaction index " ++ toString outputIndex ++ " has no actor metadata"))
  | .actor actor => do
    let targetMatches ← builder.spawnTargetMatches input spawn output actor.contract
    rejectIf (targetMatches = false) (invalidSpawnGroup spawn ("output `" ++ output.name ++
      "` actor `" ++ actorLabelOf actor.contract ++ "` does not match `" ++ output.actor ++ "`"))
    pure (spawnedActors.insert (toLex (spawn.name, output.name))
      ⟨artifactAppAlias actor.contract.artifact.app, actor.contract.name, outputIndex⟩)

def resolveSpawnGroup (context : ResolveContext) (input : ResolveActorInput)
    (spawn : SpawnArtifact) (group : List Nat) : BuilderResult ResolvedSpawnActors := do
  rejectIf (group.length ≠ spawn.outputs.length) (invalidSpawnGroup spawn
    ("expected " ++ toString spawn.outputs.length ++ " outputs, found " ++ toString group.length))
  (spawn.outputs.zip group).foldlM (builder.resolveSpawnOutput context input spawn) ∅

/-- `u16::try_from` -/
def toU16 (index : Nat) : Option UInt16 := if index < 2 ^ 16 then some (UInt16.ofNat index) else none

/-- one clause; its group starts after the group of the clause before it -/
def resolveClause (context : ResolveContext) (inputIndex : Nat) (input : ResolveActorInput)
    (state : ResolvedSpawnActors × Option Nat) (spawn : SpawnArtifact) :
    BuilderResult (ResolvedSpawnActors × Option Nat) := do
  let authorizingInput ← okOr (toU16 inputIndex)
    (.error (.genesisAuthorizingInputIndexOverflow inputIndex))
  let group ← okOr (namedGenesisGroup context ⟨authorizingInput, .spawn spawn.name⟩)
    (.error (.missingSpawnGroup inputIndex spawn.name))
  let firstOutput ← expect group.head? "index out of bounds"
  rejectIf (state.2.any fun previous => firstOutput ≤ previous) (invalidSpawnGroup spawn
    ("spawned genesis subgroups must appear in the input's `spawns` clause order " ++
      "(by first output index)"))
  let spawnedActors ← builder.resolveSpawnGroup context input spawn group
  pure (state.1.extend spawnedActors, some firstOutput)

/-- the clauses of one input; only the outputs of the context are read -/
def resolveInputSpawns (context : ResolveContext) (item : ResolveInput × Nat) :
    BuilderResult ResolveInput :=
  let (input, inputIndex) := item
  match input with
  | .ordinary input => pure (.ordinary input)
  | .actor input => do
    let (spawnedActors, _) ← input.artifactEntry.spawns.foldlM
      (builder.resolveClause context inputIndex input) (∅, none)
    pure (.actor { input with spawnedActors := some spawnedActors })

def resolveContextSpawns (context : ResolveContext) : BuilderResult ResolveContext := do
  let inputs ← context.inputs.zipIdx.mapM (builder.resolveInputSpawns context)
  pure { context with inputs := inputs }

end TxBuilder

end Argent.Runtime
