import Argent.Codegen.CurrentGroup
import Argent.Codegen.RangeAccess
import Mathlib.Logic.Function.Basic

/-!
# Caches of ranged inputs

`codegen/sil/body.rs` (`ranged_current_input`) and `codegen/sil/state_boundary.rs`
(`range_cache_declarations`, `range_cache_append`): the loop over a ranged input appends the state of
each item to an array, or each of its readable fields to an array of its own.  The preludes of
`CurrentGroup` are given again with these statements, and run with the arrays among the names.

* `BodyRun.eval`           the value of a lowered expression;
* `CacheStatement`         a statement of a prelude, with the arrays;
* `execCaches`             a run of such statements;
* `cachedInputPrelude`     the input checks of an entry, with the caches of its range.
-/

set_option linter.unusedSectionVars false

namespace Argent.Codegen
open Argent.Model Argent.Sil Argent.Fallible

/-! ## values -/

inductive BodyValue where
  | scalar (value : Value)
  | array (items : List BodyValue)
  | record (fields : List (String × BodyValue))

def BodyValue.int? : BodyValue → Option Int
  | scalar (.int value) => some value
  | _ => none

def BodyValue.scalar? : BodyValue → Option Value
  | scalar value => some value
  | _ => none

/-- `source[index]` -/
def BodyValue.item (source : BodyValue) (index : Int) : Option BodyValue :=
  match source with
  | array items => nth items index
  | _ => none

/-- `source.field` -/
def BodyValue.field (source : BodyValue) (name : String) : Option BodyValue :=
  match source with
  | record fields => fields.lookup name
  | _ => none

/-- the generated helper: `require(index >= 0); require(index < count); return index;` -/
def checkedRangeIndexHelper (index count : Int) : Option Int :=
  if index ≥ 0 then if index < count then some index else none else none

/-- whether an entry needs the helper -/
def checkedRangeIndexRequired (entry : EntryModel) : Bool :=
  (entry.current.inputs.items ++ entry.current.outputs.items).any (·.cardinality.isRange)

/-- whether the contract of an actor has the helper -/
def hasCheckedRangeIndexHelper (actor : ActorModel) : Bool := actor.entries.any checkedRangeIndexRequired

/-- what the run of a body sees: the names in scope, the amounts of the inputs, the fields of the
states that are read, and the meaning of the operations that are not modelled -/
structure BodyRun where
  ctx : ScriptContext
  names : String → Option BodyValue
  amount : Nat → Int
  /-- the fields that a state variable reads from the bytes of a state -/
  decode : String → Bytes → Option (List (String × BodyValue))
  call : String → List BodyValue → Option BodyValue
  node : String → List BodyValue → Option BodyValue

namespace BodyRun
variable (run : BodyRun)

/-- the generated helper, the introspection of the covenant, or another function -/
def runCall (name : String) (args : List BodyValue) : Option BodyValue :=
  if name = hiddenCheckedRangeIndexName then
    match args with
    | [.scalar (.int index), .scalar (.int count)] =>
      (checkedRangeIndexHelper index count).map fun index => .scalar (.int index)
    | _ => none
  else if name = "OpCovInputIdx" then do
    let args ← args.mapM BodyValue.scalar?
    let value ← Builtin.opCovInputIdx.run run.ctx args
    some (.scalar value)
  else if name = "OpInputCovenantId" then do
    let args ← args.mapM BodyValue.scalar?
    let value ← Builtin.opInputCovenantId.run run.ctx args
    some (.scalar value)
  else if name = "OpAuthOutputIdx" then do
    let args ← args.mapM BodyValue.scalar?
    let value ← Builtin.opAuthOutputIdx.run run.ctx args
    some (.scalar value)
  else run.call name args

mutual

def eval : Expr → Option BodyValue
  | .int _ value => some (.scalar (.int value))
  | .identifier _ name => run.names name
  | .neg _ expr => do
    let value ← eval expr
    let value ← value.int?
    some (.scalar (.int (-value)))
  | .add _ left right => do
    let left ← eval left
    let left ← left.int?
    let right ← eval right
    let right ← right.int?
    some (.scalar (.int (left + right)))
  | .call _ name _ args => do
    let args ← evalArgs args
    run.runCall name args
  | .fieldAccess _ source field => do
    let source ← eval source
    source.field field
  | .arrayIndex _ source index => do
    let source ← eval source
    let index ← eval index
    let index ← index.int?
    source.item index
  | .length _ source => do
    let source ← eval source
    match source with
    | .array items => some (.scalar (.int items.length))
    | _ => none
  | .structLiteral _ _ _ fields => do
    let fields ← evalFields fields
    some (.record fields)
  | .inputValue _ index => do
    let index ← eval index
    let index ← index.int?
    let _ ← nth run.ctx.tx.inputs index
    some (.scalar (.int (run.amount index.toNat)))
  | .outputValue _ index => do
    let index ← eval index
    let index ← index.int?
    let output ← nth run.ctx.tx.outputs index
    some (.scalar (.int output.value.toNat))
  | .activeInputIndex _ => some (.scalar (.int run.ctx.active))
  | .node _ kind exprs => do
    let exprs ← evalArgs exprs
    run.node kind exprs

def evalArgs : List Expr → Option (List BodyValue)
  | [] => some []
  | expr :: exprs => do
    let value ← eval expr
    let values ← evalArgs exprs
    some (value :: values)

def evalFields : List (String × Expr) → Option (List (String × BodyValue))
  | [] => some []
  | (name, expr) :: fields => do
    let value ← eval expr
    let values ← evalFields fields
    some ((name, value) :: values)

end

end BodyRun

/-! ## arrays -/

/-- the visible names of a run, and the arrays; no name is defined twice -/
structure CacheFrame where
  frame : Frame
  arrays : String → Option (List BodyValue)
  apart : ∀ definition ∈ frame.env, arrays definition.1 = none

namespace CacheFrame

/-- a name that an array has cannot be defined, nor an array under a visible name -/
def of? (frame : Frame) (arrays : String → Option (List BodyValue)) : Option CacheFrame :=
  if apart : ∀ definition ∈ frame.env, arrays definition.1 = none then
    some ⟨frame, arrays, apart⟩
  else none

/-- `T[] name;` -/
def declare (state : CacheFrame) (name : String) : Option CacheFrame :=
  match state.arrays name with
  | some _ => none
  | none => of? state.frame (Function.update state.arrays name (some []))

end CacheFrame

namespace BodyRun
variable (run : BodyRun)

/-- a variable that holds a state is the struct that was read -/
def variableValue (name : String) : Value → Option BodyValue
  | .state payload => (run.decode name payload).map .record
  | value => some (.scalar value)

/-- the visible names of a frame -/
def seen (state : CacheFrame) (name : String) : Option BodyValue :=
  match state.arrays name with
  | some items => some (.array items)
  | none => (state.frame.env.lookup name).bind (run.variableValue name)

/-- the run at a frame -/
def inFrame (state : CacheFrame) : BodyRun := { run with names := run.seen state }

/-- `name = name.append(value);` -/
def append (state : CacheFrame) (appended : String × Expr) : Option CacheFrame := do
  let items ← state.arrays appended.1
  let value ← (run.inFrame state).eval appended.2
  CacheFrame.of? state.frame (Function.update state.arrays appended.1 (some (items ++ [value])))

end BodyRun

/-- a statement of a prelude with the arrays of its ranges -/
inductive CacheStatement where
  /-- a statement without arrays -/
  | check (statement : SilStatement)
  | declare (name : String)
  /-- a loop over a range: each iteration reads an item and appends it -/
  | loop (ident : String) (start stop maxIterations : SilExpr) (body : List SilStatement)
    (appends : List (String × Expr))

def CacheStatement.exec (run : BodyRun) : CacheStatement → CacheFrame → Option CacheFrame
  | .check statement, state => do
    let frame ← statement.exec run.ctx state.frame
    CacheFrame.of? frame state.arrays
  | .declare name, state => state.declare name
  | .loop ident start stop maxIterations body appends, state => do
    let start ← start.eval run.ctx state.frame.env
    let start ← toInt? start
    let stop ← stop.eval run.ctx state.frame.env
    let stop ← toInt? stop
    let maxIterations ← maxIterations.eval run.ctx state.frame.env
    let maxIterations ← toInt? maxIterations
    -- the definitions of one iteration are not visible after it, the appended items are
    (List.range (min (stop - start) maxIterations).toNat).foldlM
      (fun state (iteration : Nat) => do
        let inner ← state.frame.define ident (.int (start + iteration))
        let read ← execAll run.ctx body inner
        let inside ← CacheFrame.of? read state.arrays
        let after ← appends.foldlM run.append inside
        CacheFrame.of? { after.frame with env := state.frame.env } after.arrays) state

def execCaches (run : BodyRun) (statements : List CacheStatement) (state : CacheFrame) :
    Option CacheFrame :=
  statements.foldlM (fun state statement => statement.exec run state) state

/-! ## caches -/

namespace PlannedEntryInputReference
variable (planned : PlannedEntryInputReference) (handle : String)

def readableFields : List PlannedSourceField :=
  planned.fields.filter fun field => field.astValue.isSome

/-- one array for the states, or one for each field that can be read -/
def rangeCacheDeclarations : List CacheStatement :=
  if planned.hasCompleteRangeCache then
    [.declare (hiddenConsumedInputAuthoredCacheName handle)]
  else planned.readableFields.map fun field =>
    .declare (hiddenConsumedInputFieldCacheName handle field.name)

def fieldProjection (field : PlannedSourceField) : Except String Expr :=
  okOr field.astValue s!"authenticated range field `{field.name}` has no AST projection"

/-- the state that an iteration has read -/
def rangeItem : Except String Expr :=
  match planned.complete with
  | some complete => .ok (.generated complete)
  | none => do
    let fields ← planned.fields.mapM fun field => do
      let value ← fieldProjection field
      return (field.name, value)
    return .structLiteral defaultSpan planned.authoredSilType defaultSpan fields

/-- what an iteration appends, with the names of the arrays -/
def rangeCacheAppend : Except String (List (String × Expr)) :=
  if planned.hasCompleteRangeCache then do
    let item ← planned.rangeItem
    return [(hiddenConsumedInputAuthoredCacheName handle, item)]
  else planned.readableFields.mapM fun field => do
    let value ← fieldProjection field
    return (hiddenConsumedInputFieldCacheName handle field.name, value)

end PlannedEntryInputReference

/-- authenticate and cache each member of a ranged current-covenant consume -/
def rangedCachedInput (planned : PlannedEntryInputReference) (handle : String) (bounds : RangeBounds)
    (start singletonCount slotOffset : Nat) (proof : InputTemplateProof) :
    Except String (List CacheStatement) := do
  let count := hiddenInputCountName handle
  let position := hiddenInputPositionName handle
  let appends ← planned.rangeCacheAppend handle
  return [.check (.define count
      (countWithout (covInputCount hiddenCovIdName) (slotOffset + singletonCount))),
    .check (comparison .ge (.identifier count) (.int bounds.minimum)),
    .check (comparison .le (.identifier count) (.int bounds.maximum))] ++
    planned.rangeCacheDeclarations handle ++
    [.loop position (.int 0) (.identifier count) (.int bounds.maximum)
      (readConsumedInput handle (positionFrom (slotOffset + start) position) proof) appends]

def cachedInput (slotOffset : Nat) (interaction : EntryInteraction) (proof : InputTemplateProof)
    (planned : PlannedEntryInputReference) : Except String (List CacheStatement) :=
  match interaction.cardinality, interaction.location with
  | .range bounds, .range start singletonCount =>
    rangedCachedInput planned interaction.handle bounds start singletonCount slotOffset proof
  | _, _ => (consumedInput slotOffset interaction proof).map (·.map .check)

section
variable (app : App) (plan : CompilerRoutePlan) (actor : ActorModel) (entry : EntryModel)
variable (references : List PlannedEntryInputReference)

/-- the rules of a group that is not batched, and its authenticated inputs with their caches -/
def cachedGroupChecks (witnesses : List TemplateWitnessSpec) (inputs : EntryInputPlan) :
    Except String (List CacheStatement) :=
  let policy := inputs.currentGroupPolicy
  if policy = .batchable then .ok []
  else do
    let reads ← (inputs.consumed.zip references).mapM fun input => do
      let proof ← inputTemplateProof witnesses actor entry input.1.1 input.1.2
      cachedInput policy.slotOffset input.1.1 proof input.2
    return (defineCovId :: groupPolicyChecks policy).map .check ++ reads.flatten

/-- current-covenant input authentication and group-position rules, with the caches -/
def cachedInputPrelude : Except String (List CacheStatement) := do
  let inputs ← entryInputPlan app actor entry
  let witnesses ← templateWitnesses app plan actor entry
  let checks ← cachedGroupChecks actor entry references witnesses inputs
  return checks ++ (optionalDelegateGuard inputs).map .check

end

end Argent.Codegen
