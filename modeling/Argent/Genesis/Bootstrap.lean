import Argent.Genesis.Sil
import Argent.Runtime.Bind

/-!
# Genesis proofs from authored states

The top layer of genesis proofs: actors of one app with the states that their author wrote.

* `ArgentCovenantBootstrap.fromContext`      the export of one group of a transaction context;
* `ArgentGenesisProof.compose`      the proof that claims the id of the exported group.
-/

set_option linter.unusedSectionVars false

namespace Argent.Genesis
open Argent.Fallible Argent.Artifacts Argent.Runtime

/-- an actor of the primary app with its authored state -/
structure ArgentGenesisOutput where
  index : UInt32
  value : UInt64
  actor : String
  authoredState : BTreeMap String ArtifactValue

/-- the initial states of a group, without a claim of a covenant id -/
structure ArgentCovenantBootstrap where
  app : String
  authorizingOutpoint : TransactionOutpoint
  outputs : List ArgentGenesisOutput

structure ArgentGenesisProof where
  authorizingOutpoint : TransactionOutpoint
  claimedCovenantId : Digest
  outputs : List ArgentGenesisOutput

inductive ArgentGenesisProofError where
  | appMismatch (expected found : String)
  | missingGenesisGroup (authorizingInput : UInt16) (subgroup : String)
  | exportOutput (outputIndex : Nat) (reason : String)
  | context (source : BuilderError)
  | bundle (source : BuilderError)
  | outputState (outputIndex : UInt32) (actor : String) (source : BuilderError)
  | sil (source : SilGenesisProofError)

abbrev ArgentGenesisResult (α : Type) := Except (Fault ArgentGenesisProofError) α

section
variable {crates : RuntimeCrates} (bundle : ArtifactBundle crates.toCrates)

/-! ## export -/

/-- one output of the group: an actor of the primary app with a state known beforehand -/
def exportOutput (item : ContextOutput × Nat) : ArgentGenesisResult ArgentGenesisOutput :=
  let (output, outputIndex) := item
  match output.owner with
  | .spk _ => fail (.exportOutput outputIndex "raw-script output has no authored actor state")
  | .actor actor state => do
    rejectIf (actor.app.any (· != bundle.primaryAlias) = true) (.error (.exportOutput outputIndex
      ("actor `" ++ actor.text ++ "` is not in primary app `" ++ bundle.primary.app ++ "`")))
    match state with
    | .withContext _ =>
      fail (.context (.genesisOutputStateCallback outputIndex actor.text))
    | .static state => do
      let index ← okOr (toU32 outputIndex)
        (.error (.context (.genesisOutputIndexOverflow outputIndex)))
      pure ⟨index, output.value, actor.actor, state⟩

def ArgentCovenantBootstrap.fromContext (context : TxContext) (authorizingInput : UInt16)
    (subgroup : String) : ArgentGenesisResult ArgentCovenantBootstrap := do
  let input ← okOr context.inputs[authorizingInput.toNat]? (.error (.context
    (.genesisAuthorizingInputOutOfRange authorizingInput context.inputs.length)))
  let outputs ← (context.outputs.zipIdx.filter fun item =>
    item.1.covenant = .genesis authorizingInput subgroup).mapM (exportOutput bundle)
  rejectIf (outputs = []) (.error (.missingGenesisGroup authorizingInput subgroup))
  pure ⟨bundle.primary.app, input.outpoint, outputs⟩

/-! ## composition -/

def materializeActor (builder : TxBuilder crates) (output : ArgentGenesisOutput) :
    ArgentGenesisResult SilGenesisOutput := do
  let runtimeState ← mapFault (ArgentGenesisProofError.outputState output.index output.actor)
    (builder.materializeActorState output.actor output.authoredState)
  pure ⟨output.index, output.value, 0, output.actor, runtimeState⟩

def materializeActors (outputs : List ArgentGenesisOutput) :
    ArgentGenesisResult (List SilGenesisOutput) := do
  let builder ← mapFault ArgentGenesisProofError.bundle (TxBuilder.fromBundle bundle)
  outputs.mapM (materializeActor builder)

namespace ArgentGenesisProof

def compose (authorizingOutpoint : TransactionOutpoint) (outputs : List ArgentGenesisOutput) :
    ArgentGenesisResult ArgentGenesisProof := do
  let silOutputs ← materializeActors bundle outputs
  let silProof ← mapFault ArgentGenesisProofError.sil
    (SilGenesisProof.compose crates [bundle.primary.silAbi] authorizingOutpoint silOutputs)
  pure ⟨authorizingOutpoint, silProof.claimedCovenantId, outputs⟩

/-- the proof with its physical states, which keeps the published claim -/
def silProof (proof : ArgentGenesisProof) : ArgentGenesisResult SilGenesisProof := do
  let outputs ← materializeActors bundle proof.outputs
  pure ⟨[bundle.primary.silAbi], proof.authorizingOutpoint, proof.claimedCovenantId, outputs⟩

def verify (proof : ArgentGenesisProof) (expected : Digest) : ArgentGenesisResult PUnit := do
  let silProof ← proof.silProof bundle
  mapFault ArgentGenesisProofError.sil (silProof.verify crates expected)

end ArgentGenesisProof

def ArgentCovenantBootstrap.compose (bootstrap : ArgentCovenantBootstrap) :
    ArgentGenesisResult ArgentGenesisProof := do
  rejectIf (bootstrap.app ≠ bundle.primary.app)
    (.error (.appMismatch bundle.primary.app bootstrap.app))
  ArgentGenesisProof.compose bundle bootstrap.authorizingOutpoint bootstrap.outputs

end

end Argent.Genesis
