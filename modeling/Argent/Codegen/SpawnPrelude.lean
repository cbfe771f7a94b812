import Argent.Base.ScriptNumbers
import Argent.Base.Straightline
import Argent.Base.Utf8
import Argent.Genesis.Consensus
import Argent.Model.Entry
import Argent.Sil.Script
import Argent.Syntax.Expressions

/-!
# Checks of spawn clauses

`spawn_prelude` of `codegen/sil/body.rs`: the statements with which an entry checks that the outputs its
callers name are the whole genesis groups of its spawn clauses.

* `SpawnExpr`, `SpawnExpr.eval`      the expressions of the checks, and their values in a transaction;
* `spawnClause`              the statements of one clause;
* `spawnPrelude`             the statements of all clauses, in source order.
-/

set_option linter.unusedSectionVars false

namespace Argent.Codegen
open Argent.Model Argent.Sil Straightline

/-! ## expressions -/

inductive SpawnBuiltin where
  | opOutpointTxId
  | opOutpointIndex
  /-- `__as_cast_byte[8]` -/
  | asCastByte8
  | opTxOutputSpkSubstr
  | blake2bWithKey
  /-- `byte[]` -/
  | byteArray
  | opOutputCovenantId
deriving DecidableEq, Repr

inductive SpawnOp where
  | add
  | lt
  | eq
deriving DecidableEq, Repr

inductive SpawnExpr where
  /-- `this.activeInputIndex` -/
  | activeInputIndex
  | int (value : Int)
  | bytes (value : Bytes)
  | string (value : String)
  | identifier (name : String)
  /-- `tx.outputs[index].value` -/
  | outputValue (index : SpawnExpr)
  | slice (source start stop : SpawnExpr)
  | call (builtin : SpawnBuiltin) (args : List SpawnExpr)
  | binary (op : SpawnOp) (left right : SpawnExpr)

/-- the transaction, the input whose script runs, and the keyed hash of the script engine -/
structure SpawnContext where
  tx : Transaction
  active : Nat
  blake2bWithKey : Bytes → Bytes → Bytes

/-- the version of an output's script, high byte first, and the script -/
def scriptPublicKeyBytes (output : TransactionOutput) : Bytes :=
  UInt8.ofNat (output.version.toNat / 256) :: UInt8.ofNat output.version.toNat :: output.script

def SpawnBuiltin.run (ctx : SpawnContext) : SpawnBuiltin → List Value → Option Value
  | opOutpointTxId, [.int input] => do
    let input ← nth ctx.tx.inputs input
    some (.bytes input.outpoint.transactionId)
  | opOutpointIndex, [.int input] => do
    let input ← nth ctx.tx.inputs input
    some (.int input.outpoint.index.toNat)
  | asCastByte8, [.int value] => (SignMagnitude.num2bin 8 value).map .bytes
  | opTxOutputSpkSubstr, [.int output, start, stop] => do
    let output ← nth ctx.tx.outputs output
    (Value.bytes (scriptPublicKeyBytes output)).slice start stop
  | blake2bWithKey, [.bytes data, .bytes key] => some (.bytes (ctx.blake2bWithKey data key))
  | byteArray, [.bytes value] => some (.bytes value)
  | opOutputCovenantId, [.int output] => do
    let output ← nth ctx.tx.outputs output
    let binding ← output.covenant
    some (.bytes binding.covenantId)
  | _, _ => none

def SpawnOp.run : SpawnOp → Value → Value → Option Value
  | add, .bytes left, .bytes right => some (.bytes (left ++ right))
  | add, .int left, .int right => some (.int (left + right))
  | lt, .int left, .int right => some (.bool (decide (left < right)))
  | eq, left, right => some (.bool (decide (left = right)))
  | _, _, _ => none

mutual

def SpawnExpr.eval (ctx : SpawnContext) (env : Sil.Env) : SpawnExpr → Option Value
  | .activeInputIndex => some (.int ctx.active)
  | .int value => some (.int value)
  | .bytes value => some (.bytes value)
  | .string value => some (.bytes (Utf8.utf8 value.toList))
  | .identifier name => env.lookup name
  | .outputValue index => do
    let index ← index.eval ctx env
    let index ← toInt? index
    let output ← nth ctx.tx.outputs index
    some (.int output.value.toNat)
  | .slice source start stop => do
    let source ← source.eval ctx env
    let start ← start.eval ctx env
    let stop ← stop.eval ctx env
    source.slice start stop
  | .call builtin args => do
    let args ← evalSpawnArgs ctx env args
    builtin.run ctx args
  | .binary op left right => do
    let left ← left.eval ctx env
    let right ← right.eval ctx env
    op.run left right

def evalSpawnArgs (ctx : SpawnContext) (env : Sil.Env) : List SpawnExpr → Option (List Value)
  | [] => some []
  | arg :: args => do
    let value ← arg.eval ctx env
    let values ← evalSpawnArgs ctx env args
    some (value :: values)

end

/-- a check accepts `true` -/
def SpawnContext.language (ctx : SpawnContext) : Language SpawnExpr Value where
  eval := SpawnExpr.eval ctx
  holds value := decide (value = .bool true)

/-! ## the statements -/

abbrev SpawnStatement := Statement Syntax.Expression.SilTypeRef SpawnExpr

def P2SH_SPK_VERSION : Bytes := [0, 0]
def SPK_VERSION_LEN : Nat := P2SH_SPK_VERSION.length
def P2SH_SCRIPT_LEN : Nat := 35

def hiddenSpawnOutputIdxName (spawn handle : String) : String :=
  RESERVED_GENERATED_PREFIX ++ spawn ++ "_" ++ handle ++ "_output_idx"

def hiddenSpawnPreimageName (spawn : String) : String :=
  RESERVED_GENERATED_PREFIX ++ spawn ++ "_genesis_preimage"

def asByte8 (value : SpawnExpr) : SpawnExpr := .call .asCastByte8 [value]

def slice4 (source : SpawnExpr) : SpawnExpr := .slice source (.int 0) (.int 4)

/-- the index, the value, the version and the script of an output -/
def spawnOutputParts (outputIdx : String) : List SpawnExpr :=
  [slice4 (asByte8 (.identifier outputIdx)),
    asByte8 (.outputValue (.identifier outputIdx)),
    .bytes P2SH_SPK_VERSION,
    asByte8 (.int P2SH_SCRIPT_LEN),
    .call .opTxOutputSpkSubstr
      [.identifier outputIdx, .int SPK_VERSION_LEN, .int (SPK_VERSION_LEN + P2SH_SCRIPT_LEN)]]

/-- what the id of the group is hashed from -/
def spawnPreimage (spawn : SpawnDecl) (outputs : List EntryInteraction) : SpawnExpr :=
  ([slice4 (asByte8 (.call .opOutpointIndex [.activeInputIndex])),
      asByte8 (.int outputs.length)] ++
    outputs.flatMap fun output =>
      spawnOutputParts (hiddenSpawnOutputIdxName spawn.name output.handle)).foldl (.binary .add)
    (.call .opOutpointTxId [.activeInputIndex])

/-- the id of the group, and the checks that it is the one of its first output and that this output
comes after the first one of the clause before -/
def spawnClause (previous : Option String) (spawn : SpawnDecl) (outputs : List EntryInteraction)
    (firstIdx : String) : List SpawnStatement :=
  [.define ⟨.byte, [.dynamic]⟩ (hiddenSpawnPreimageName spawn.name) (spawnPreimage spawn outputs),
    .define ⟨.byte, [.fixed 32]⟩ spawn.covenant (.call .blake2bWithKey
      [.identifier (hiddenSpawnPreimageName spawn.name),
        .call .byteArray [.string "CovenantID"]])] ++
  (previous.toList.map fun previous =>
    .require (.binary .lt (.identifier previous) (.identifier firstIdx))) ++
  [.require (.binary .eq (.call .opOutputCovenantId [.identifier firstIdx])
    (.identifier spawn.covenant))]

/-- the clauses one after the other; a clause without outputs is a panic -/
def spawnClauses : Option String → List (SpawnDecl × CovenantGroup) → Option (List SpawnStatement)
  | _, [] => some []
  | previous, (spawn, group) :: groups => do
    let outputs := group.outputs.items
    let first ← outputs.head?
    let firstIdx := hiddenSpawnOutputIdxName spawn.name first.handle
    let statements ← spawnClauses (some firstIdx) groups
    some (spawnClause previous spawn outputs firstIdx ++ statements)

def spawnPrelude (entry : EntryModel) : Option (List SpawnStatement) :=
  spawnClauses none entry.genesisGroups

end Argent.Codegen
