import Argent.Artifacts.Artifact

/-!
# Transaction contexts

What a caller describes of a transaction, before actor paths are resolved and compiler-generated
scripts are filled in, and the transaction that is built from it.

* `TxContext`      ordered inputs and outputs with transaction-wide metadata;
* `StateContext`      the covenant ids that deferred states can ask for.
-/

set_option linter.unusedSectionVars false

namespace Argent.Runtime
open Argent.Sil (Bytes)
open Argent.Artifacts

instance linearOrderUInt16 : LinearOrder UInt16 :=
  LinearOrder.lift' UInt16.toNat fun _ _ h => UInt16.toNat_inj.mp h

/-! ## transactions -/

structure TransactionOutpoint where
  transactionId : Digest
  index : UInt32
deriving DecidableEq

structure ScriptPublicKey where
  version : UInt16
  script : Bytes
deriving DecidableEq

structure CovenantBinding where
  authorizingInput : UInt16
  covenantId : Digest
deriving DecidableEq

structure UtxoEntry where
  amount : UInt64
  scriptPublicKey : ScriptPublicKey
  blockDaaScore : UInt64
  isCoinbase : Bool
  covenantId : Option Digest
deriving DecidableEq

structure TransactionInput where
  previousOutpoint : TransactionOutpoint
  signatureScript : Bytes
  sequence : UInt64
  computeBudget : UInt16
deriving DecidableEq

structure TransactionOutput where
  value : UInt64
  scriptPublicKey : ScriptPublicKey
  covenant : Option CovenantBinding
deriving DecidableEq

structure Transaction where
  version : UInt16
  inputs : List TransactionInput
  outputs : List TransactionOutput
  lockTime : UInt64
  subnetworkId : Bytes
  gas : UInt64
  payload : Bytes
deriving DecidableEq

/-- a transaction with the outputs that it spends, as far as they are known -/
structure MutableTransaction where
  tx : Transaction
  entries : List (Option UtxoEntry)
deriving DecidableEq

/-- `MutableTransaction::with_entries` -/
def MutableTransaction.withEntries (tx : Transaction) (entries : List UtxoEntry) :
    MutableTransaction :=
  ⟨tx, entries.map some⟩

/-! ## actors -/

/-- an actor in the primary app or in a named attached app -/
structure ActorPath where
  app : Option String
  actor : String
deriving DecidableEq, Repr

def ActorPath.text (path : ActorPath) : String :=
  match path.app with
  | some app => app ++ "::" ++ path.actor
  | none => path.actor

/-- a user argument of an entry -/
inductive ArgValue where
  | value (value : ArtifactValue)
  | actor (actor : String)

/-- arguments that are known beforehand, or that depend on the unsigned transaction -/
inductive EntryArgs where
  | static (args : List ArgValue)
  | withTransaction (build : MutableTransaction → Nat → Except String (List ArgValue))

structure EntryCall where
  name : String
  args : EntryArgs

inductive InputSigScript where
  | static (script : Bytes)
  | withTransaction (build : MutableTransaction → Nat → Except String Bytes)

/-! ## inputs -/

structure ActorInput where
  actor : ActorPath
  state : BTreeMap String ArtifactValue
  entry : EntryCall
  outpoint : TransactionOutpoint
  utxo : UtxoEntry
  sequence : UInt64

structure OrdinaryInput where
  outpoint : TransactionOutpoint
  utxo : UtxoEntry
  signatureScript : InputSigScript
  sequence : UInt64

inductive ContextInput where
  | actor (input : ActorInput)
  | ordinary (input : OrdinaryInput)

def ContextInput.outpoint : ContextInput → TransactionOutpoint
  | .actor input => input.outpoint
  | .ordinary input => input.outpoint

def ContextInput.utxo : ContextInput → UtxoEntry
  | .actor input => input.utxo
  | .ordinary input => input.utxo

def ContextInput.sequence : ContextInput → UInt64
  | .actor input => input.sequence
  | .ordinary input => input.sequence

/-! ## outputs -/

/-- covenant ids by authorizing input and subgroup -/
structure StateContext where
  genesisCovenantIds : BTreeMap UInt16 (BTreeMap String Digest)

namespace StateContext

def empty : StateContext := ⟨∅⟩

def genesisCovenantId (context : StateContext) (authorizingInput : UInt16) (subgroup : String) :
    Option Digest :=
  (context.genesisCovenantIds.get authorizingInput).bind fun ids => ids.get subgroup

def insertGenesisCovenantId (context : StateContext) (authorizingInput : UInt16)
    (subgroup : String) (covenantId : Digest) : StateContext :=
  ⟨context.genesisCovenantIds.modify authorizingInput fun ids => ids.insert subgroup covenantId⟩

theorem genesisCovenantId_empty (authorizingInput : UInt16) (subgroup : String) :
    empty.genesisCovenantId authorizingInput subgroup = none := rfl

theorem genesisCovenantId_insert (context : StateContext) (authorizingInput input : UInt16)
    (subgroup name : String) (covenantId : Digest) :
    (context.insertGenesisCovenantId authorizingInput subgroup covenantId).genesisCovenantId
        input name =
      if input = authorizingInput ∧ name = subgroup then some covenantId
      else context.genesisCovenantId input name := by
  unfold insertGenesisCovenantId genesisCovenantId
  dsimp only
  rw [BTreeMap.get_modify]
  by_cases hinput : input = authorizingInput
  · subst hinput
    rw [if_pos rfl, Option.bind_some, BTreeMap.get_insert]
    by_cases hname : name = subgroup
    · rw [if_pos hname, if_pos ⟨rfl, hname⟩]
    · rw [if_neg hname, if_neg fun h => hname h.2]
      unfold BTreeMap.getD
      cases context.genesisCovenantIds.get input <;> rfl
  · rw [if_neg hinput, if_neg fun h => hinput h.1]

end StateContext

/-- a state known beforehand, or one that asks for covenant ids of the transaction -/
inductive OutputState where
  | static (state : BTreeMap String ArtifactValue)
  | withContext (build : StateContext → Except String (BTreeMap String ArtifactValue))

namespace OutputState

def resolve (state : OutputState) (context : StateContext) :
    Except String (BTreeMap String ArtifactValue) :=
  match state with
  | .static state => .ok state
  | .withContext build => build context

def isDeferred : OutputState → Bool
  | .static _ => false
  | .withContext _ => true

end OutputState

inductive OutputOwner where
  | actor (actor : ActorPath) (state : OutputState)
  | spk (scriptPublicKey : ScriptPublicKey)

inductive OutputCovenant where
  | unbound
  | existing (binding : CovenantBinding)
  | genesis (authorizingInput : UInt16) (subgroup : String)
deriving DecidableEq

structure ContextOutput where
  owner : OutputOwner
  covenant : OutputCovenant
  value : UInt64

structure TxContext where
  inputs : List ContextInput
  outputs : List ContextOutput
  lockTime : UInt64
  subnetworkId : Bytes
  gas : UInt64
  payload : Bytes

end Argent.Runtime
