import Argent.Runtime.Observations

/-!
# Building of transactions

The passes that turn a context into a signed transaction: binding, the unsigned transaction, the
arguments of each input, its signature script, and the execution of all scripts.

* `executeTransactionWithCovenants`      runs the scripts and commits their compute budgets;
* `TxBuilder.build`      all passes.
-/

set_option linter.unusedSectionVars false

namespace Argent.Runtime
open Argent.Fallible Argent.Sil Argent.Artifacts

/-- what signing and execution use of other crates -/
structure TransactionCrates extends RuntimeCrates where
  /-- `encode_entry_sig_script` of `silverscript-abi` -/
  encodeEntrySigScript : SilAbiArtifact → String → SilContractArtifact → String →
    SilEntryArtifact → List ArtifactValue → Except CodecError Bytes
  /-- `pay_to_script_hash_signature_script_with_flags` under the flags of the engine, with the text
  of the error -/
  payToScriptHashSignatureScript : Bytes → Bytes → Except String Bytes
  /-- `CovenantsContext::from_tx` -/
  covenantsContext : Transaction → List UtxoEntry → Except String PUnit
  /-- the script units that the engine uses for an input, which spends the given output -/
  executeInput : Transaction → List UtxoEntry → TransactionInput → Nat → UtxoEntry →
    Except String UInt64
  /-- `ComputeBudget::checked_covering_script_units` -/
  coveringComputeBudget : UInt64 → Option UInt16
  /-- `calc_non_contextual_masses`: the compute mass and the transient mass -/
  nonContextualMasses : Transaction → UInt64 × UInt64
  /-- `block_mass_limits` of the main network: of compute and of transient mass -/
  blockMassLimits : UInt64 × UInt64

/-! ## execution -/

section
variable (crates : TransactionCrates)

def measureInputScriptUnitsWithCovenants (tx : Transaction) (entries : List UtxoEntry)
    (inputIndex : Nat) : BuilderResult UInt64 := do
  let input ← expect tx.inputs[inputIndex]? "index out of bounds"
  let utxo ← expect entries[inputIndex]? "selected input utxo"
  orFail (BuilderError.inputScript inputIndex) (crates.executeInput tx entries input inputIndex utxo)

def commitComputeBudget (inputs : List TransactionInput) (item : UInt64 × Nat) :
    BuilderResult (List TransactionInput) := do
  let (scriptUnits, inputIndex) := item
  let computeBudget ← okOr (crates.coveringComputeBudget scriptUnits)
    (.error (.computeBudgetOverflow inputIndex scriptUnits))
  let input ← expect inputs[inputIndex]? "index out of bounds"
  pure (inputs.set inputIndex { input with computeBudget := computeBudget })

/-- the transaction with the compute budgets that its scripts need -/
def executeTransactionWithCovenants (tx : Transaction) (entries : List UtxoEntry) :
    BuilderResult Transaction := do
  rejectIf (tx.version ≠ TxBuilder.txVersion)
    (.error (.unsupportedTransactionVersion TxBuilder.txVersion tx.version))
  rejectIf (tx.inputs.length ≠ entries.length)
    (.error (.inputEntryCountMismatch tx.inputs.length entries.length))
  orFail BuilderError.txScript (crates.covenantsContext tx entries)
  let usedScriptUnits ← (List.range tx.inputs.length).mapM
    (measureInputScriptUnitsWithCovenants crates tx entries)
  let inputs ← usedScriptUnits.zipIdx.foldlM (commitComputeBudget crates) tx.inputs
  let masses := crates.nonContextualMasses { tx with inputs := inputs }
  rejectIf (crates.blockMassLimits.1 < masses.1)
    (.error (.computeMassLimitExceeded masses.1 crates.blockMassLimits.1))
  rejectIf (crates.blockMassLimits.2 < masses.2)
    (.error (.transientMassLimitExceeded masses.2 crates.blockMassLimits.2))
  pure { tx with inputs := inputs }

/-! ## signature scripts -/

/-- the user arguments, then the hidden ones, for the entry that the input calls -/
def actorSignatureScript (input : ResolveActorInput) : BuilderResult Bytes := do
  let args ← expect input.args "argument resolution precedes sigscript construction"
  let hiddenArgs ← expect input.hiddenArgs
    "hidden-argument resolution precedes sigscript construction"
  let abiScript ← orFail BuilderError.codec (crates.encodeEntrySigScript input.artifact.silAbi
    input.contractName input.contract input.artifactEntry.name input.silEntry
    (args.values ++ hiddenArgs))
  let redeemScript ← redeemScriptForContract crates.toRuntimeCrates input.contractRef
    input.source.state
  orFail BuilderError.scriptBuilder (crates.payToScriptHashSignatureScript redeemScript abiScript)

def inputSignatureScript (unsigned : MutableTransaction) (item : ResolveInput × Nat) :
    BuilderResult Bytes :=
  match item.1 with
  | .actor input => actorSignatureScript crates input
  | .ordinary input =>
    match input.signatureScript with
    | .static script => pure script
    | .withTransaction build =>
      orFail (BuilderError.inputSigScriptCallback item.2) (build unsigned item.2)

end

/-- the loop over inputs zipped with scripts -/
def assignSignatureScripts : List TransactionInput → List Bytes → List TransactionInput
  | input :: inputs, script :: scripts =>
    { input with signatureScript := script } :: assignSignatureScripts inputs scripts
  | inputs, _ => inputs

namespace TxBuilder

def build (crates : TransactionCrates) (builder : TxBuilder crates.toRuntimeCrates)
    (context : TxContext) : BuilderResult Transaction := do
  let bound ← builder.bindContext context
  let unsigned ← unsignedTransaction crates.toRuntimeCrates bound
  validateLeaderActorInputCounts bound
  let context ← resolveContextArgs bound unsigned
  let context ← builder.resolveContextObservations context unsigned
  let context ← builder.resolveContextSpawns context
  let context ← builder.resolveContextHiddenArgs context
  let signatureScripts ← context.inputs.zipIdx.mapM (inputSignatureScript crates unsigned)
  let entries ← unsigned.entries.mapM fun entry =>
    expect entry "context transaction inputs always carry UTXO entries"
  executeTransactionWithCovenants crates
    { unsigned.tx with inputs := assignSignatureScripts unsigned.tx.inputs signatureScripts }
    entries

end TxBuilder

end Argent.Runtime
