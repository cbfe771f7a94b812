import Argent.Codegen.CurrentGroup
import Argent.Model.ForeignRoutes

/-!
# Accesses to ranged handles

How `codegen/sil/body.rs` lowers the expressions of an entry body (`EntryInputStateAstLowerer`), and
the literal range indexes that `compiler/model/inputs.rs` and `compiler/model/outputs.rs` refuse.
What the planners record at source spans (bindings, references, actor fields, value uses) is an
input.  The names of types are left out, and so is the set of digest helpers that a body needs.

* `invalidInputIndexes`, `invalidOutputIndexes`      the literals outside of their range;
* `checkedRangeIndex`      an index that is a small literal, or goes through the generated helper;
* `visitExpr`              the lowering of an expression.
-/

set_option linter.unusedSectionVars false

namespace Argent.Codegen
open Argent.Model Argent.Fallible

/-! ## expressions -/

/-- where a node stands in its source; generated nodes have the default span -/
abbrev Span := Nat × Nat

def defaultSpan : Span := (0, 0)

/-- A node of a retained body.  A literal is read from digits, so it is not negative. -/
inductive Expr where
  | int (span : Span) (value : Nat)
  | identifier (span : Span) (name : String)
  | neg (span : Span) (expr : Expr)
  | add (span : Span) (left right : Expr)
  | call (span : Span) (name : String) (nameSpan : Span) (args : List Expr)
  | fieldAccess (span : Span) (source : Expr) (field : String)
  | arrayIndex (span : Span) (source index : Expr)
  /-- `source.length` -/
  | length (span : Span) (source : Expr)
  | structLiteral (span : Span) (name : String) (nameSpan : Span) (fields : List (String × Expr))
  /-- `tx.inputs[index].value` and `tx.outputs[index].value` -/
  | inputValue (span : Span) (index : Expr)
  | outputValue (span : Span) (index : Expr)
  | activeInputIndex (span : Span)
  /-- any other kind of node, with its expressions in source order -/
  | node (span : Span) (kind : String) (exprs : List Expr)

namespace Expr

def span : Expr → Span
  | int span _ | identifier span _ | neg span _ | add span _ _ | call span _ _ _
  | fieldAccess span _ _ | arrayIndex span _ _ | length span _ | structLiteral span _ _ _
  | inputValue span _ | outputValue span _ | activeInputIndex span | node span _ _ => span

/-- a generated name -/
def generated (name : String) : Expr := identifier defaultSpan name

/-- a generated call -/
def apply (name : String) (args : List Expr) : Expr := call defaultSpan name defaultSpan args

/-- an identifier, or the fields of one -/
def isPath : Expr → Bool
  | identifier _ _ => true
  | fieldAccess _ source _ => source.isPath
  | _ => false

end Expr

/-! ## literal indexes -/

/-- a literal index, with its sign -/
def literalIndex : Expr → Option Int
  | .int _ value => some value
  | .neg _ (.int _ value) => some (-value)
  | _ => none

/-- a literal index of a range, when no item can stand there -/
def outsideRange (range : String × Int) (index : Expr) : List (String × Int × Int) :=
  match literalIndex index with
  | some value => if value < 0 ∨ value ≥ range.2 then [(range.1, value, range.2)] else []
  | none => []

mutual

/-- the nodes of an expression, from the root on -/
def Expr.nodes : Expr → List Expr
  | .int span value => [.int span value]
  | .identifier span name => [.identifier span name]
  | .neg span expr => .neg span expr :: expr.nodes
  | .add span left right => .add span left right :: (left.nodes ++ right.nodes)
  | .call span name nameSpan args => .call span name nameSpan args :: nodesAll args
  | .fieldAccess span source field => .fieldAccess span source field :: source.nodes
  | .arrayIndex span source index => .arrayIndex span source index :: (source.nodes ++ index.nodes)
  | .length span source => .length span source :: source.nodes
  | .structLiteral span name nameSpan fields =>
    .structLiteral span name nameSpan fields :: nodesFields fields
  | .inputValue span index => .inputValue span index :: index.nodes
  | .outputValue span index => .outputValue span index :: index.nodes
  | .activeInputIndex span => [.activeInputIndex span]
  | .node span kind exprs => .node span kind exprs :: nodesAll exprs

def nodesAll : List Expr → List Expr
  | [] => []
  | expr :: exprs => expr.nodes ++ nodesAll exprs

def nodesFields : List (String × Expr) → List Expr
  | [] => []
  | (_, expr) :: fields => expr.nodes ++ nodesFields fields

end

/-- the identifier at the root of a path of fields and indexes -/
def Expr.rootSpan : Expr → Option Span
  | .identifier span _ => some span
  | .fieldAccess _ source _ => source.rootSpan
  | .arrayIndex _ source _ => source.rootSpan
  | _ => none

section
-- the handle and the maximum of the range that a span refers to
variable (maxima : Span → Option (String × Int))

/-- the literal index of a ranged input, outside of its range -/
def invalidInputIndex : Expr → List (String × Int × Int)
  | .arrayIndex _ (.identifier span _) index =>
    (maxima span).elim [] fun range => outsideRange range index
  | _ => []

/-- the literal index of the value of a ranged output, outside of its range -/
def invalidOutputIndex : Expr → List (String × Int × Int)
  | .fieldAccess _ (.arrayIndex _ source index) "value" =>
    (source.rootSpan.bind maxima).elim [] fun range => outsideRange range index
  | _ => []

/-- the visitor keeps the last invalid index -/
def rejectRangeIndexes (invalid : Expr → List (String × Int × Int)) (body : List Expr)
    (place : String) : Except String PUnit.{1} :=
  match ((nodesAll body).flatMap invalid).getLast? with
  | some (handle, index, maximum) =>
    .error s!"range `{handle}` index `{index}` is outside its declared positions `0..{maximum}`{place}"
  | none => .ok ⟨⟩

def validateInputIndexes (body : List Expr) : Except String PUnit.{1} :=
  rejectRangeIndexes (invalidInputIndex maxima) body ""

def validateOutputIndexes (actor entry : String) (body : List Expr) : Except String PUnit.{1} :=
  rejectRangeIndexes (invalidOutputIndex maxima) body s!" in `{actor}::{entry}`"

end

/-! ## locations -/

/-- the transaction positions and the least count of a ranged handle -/
structure RangeValueLocation where
  firstIndex : Nat
  count : String
  minimum : Int
deriving DecidableEq, Repr

inductive InputValueLocation where
  | singleton
  | range (covenantId : String) (range : RangeValueLocation)
deriving DecidableEq, Repr

/-- the materialized transaction locations of an entry -/
structure BodyBindings where
  inputValues : BTreeMap LocalId InputValueLocation
  outputRanges : BTreeMap LocalId RangeValueLocation

def BodyBindings.inputValue (bindings : BodyBindings) : Option Binding → Option InputValueLocation
  | some (.local id) => bindings.inputValues.get id
  | _ => none

def BodyBindings.outputRange (bindings : BodyBindings) : Option Binding → Option RangeValueLocation
  | some (.local id) => bindings.outputRanges.get id
  | _ => none

/-- the location of a consumed input -/
def inputValueLocation (slotOffset : Nat) (interaction : EntryInteraction) :
    Except String InputValueLocation :=
  match interaction.cardinality, interaction.location with
  | .range bounds, .range start _ =>
    .ok (.range hiddenCovIdName
      ⟨slotOffset + start, hiddenInputCountName interaction.handle, bounds.minimum⟩)
  | .range _, .fromStart _ | .range _, .fromEnd _ =>
    .error "ranged interaction retains a ranged location"
  | .one, _ => .ok .singleton

/-- the range of an emitted output -/
def outputRangeLocation (interaction : EntryInteraction) : Option RangeValueLocation :=
  match interaction.cardinality, interaction.location with
  | .range bounds, .range start _ =>
    some ⟨start, hiddenOutputCountName interaction.handle, bounds.minimum⟩
  | _, _ => none

/-- the locations of an entry, by the locals of its `consumes` and `emits` clauses -/
def bodyBindings (slotOffset : Nat) (entry : EntryModel) (consumes emits : Nat → Option LocalId) :
    Except String BodyBindings := do
  let inputs ← entry.current.inputs.items.zipIdx.mapM fun item => do
    let location ← inputValueLocation slotOffset item.1
    let id ← okOr (consumes item.2) "consumed input has no bound local identity"
    return (id, location)
  let ranges ← (entry.current.outputs.items.zipIdx.filterMap fun item =>
      (outputRangeLocation item.1).map fun range => (item.2, range)).mapM fun item => do
    let id ← okOr (emits item.1) "ranged output has no bound local identity"
    return (id, item.2)
  return ⟨.ofList inputs, .ofList ranges⟩

/-- the handles of the ranged inputs with their maxima, by their locals -/
def inputMaxima (entry : EntryModel) (consumes : Nat → Option LocalId) :
    Except String (BTreeMap LocalId (String × Int)) := do
  let maxima ← (entry.current.inputs.items.zipIdx.filterMap fun item =>
      item.1.cardinality.rangeBounds.map fun bounds => (item, bounds.maximum)).mapM fun range => do
    let id ← okOr (consumes range.1.2) "ranged input requirement has no bound handle"
    return (id, range.1.1.handle, range.2)
  return .ofList maxima

/-- the handles of the ranged outputs with their maxima; an output range that is always empty has no
item that could be named -/
def outputMaxima (actorName entryName : String) (entry : EntryModel) (emits : Nat → Option LocalId) :
    Except String (BTreeMap LocalId (String × Int)) := do
  let roots ← entry.current.outputs.items.zipIdx.mapM fun item => do
    let root ← okOr (emits item.2)
      s!"entry `{actorName}::{entryName}` has an unbound emitted output"
    return (root, item.1)
  return .ofList <| roots.filterMap fun root => do
    let bounds ← root.2.cardinality.rangeBounds
    if 0 < bounds.maximum then some (root.1, root.2.handle, bounds.maximum) else none

/-- the range that the name at a span is bound to -/
def maximumAt (binding : Span → Option Binding) (maxima : BTreeMap LocalId (String × Int))
    (span : Span) : Option (String × Int) :=
  match binding span with
  | some (.local id) => maxima.get id
  | _ => none

/-- the literal indexes that the planner of the inputs refuses -/
def validateInputRanges (binding : Span → Option Binding) (entry : EntryModel)
    (consumes : Nat → Option LocalId) (exprs : List Expr) : Except String PUnit.{1} := do
  let maxima ← inputMaxima entry consumes
  validateInputIndexes (maximumAt binding maxima) exprs

/-- the literal indexes that the planner of the outputs refuses -/
def validateOutputRanges (binding : Span → Option Binding) (actorName entryName : String)
    (entry : EntryModel) (emits : Nat → Option LocalId) (exprs : List Expr) :
    Except String PUnit.{1} := do
  let maxima ← outputMaxima actorName entryName entry emits
  validateOutputIndexes (maximumAt binding maxima) actorName entryName exprs

/-! ## planned references -/

def hiddenCheckedRangeIndexName : String := RESERVED_GENERATED_PREFIX ++ "checked_range_index"

def hiddenConsumedInputAuthoredCacheName (handle : String) : String :=
  RESERVED_GENERATED_PREFIX ++ handle ++ "_authored_states"

def hiddenConsumedInputFieldCacheName (handle field : String) : String :=
  RESERVED_GENERATED_PREFIX ++ handle ++ "_" ++ field ++ "_values"

/-- a field of the authored state of an input; an expanded field may have no value -/
structure PlannedSourceField where
  name : String
  astValue : Option Expr
  trustedStorage : Option String

/-- an input reference, with the state that the source sees -/
structure PlannedEntryInputReference where
  reference : String
  source : String
  target : String
  authoredSilType : String
  complete : Option String
  fields : List PlannedSourceField
  inputIndex : Expr
  /-- the digest of its authored payload -/
  payloadDigest : Option Expr

namespace PlannedEntryInputReference
variable (planned : PlannedEntryInputReference)

def projectField (name : String) : Option Expr := do
  let field ← planned.fields.find? fun field => field.name = name
  field.astValue

/-- a component of an expanded field -/
def expandedField (name component : String) : Option Expr := do
  let field ← planned.fields.find? fun field => field.name = name ∧ field.trustedStorage.isSome
  match field.astValue with
  | some (.structLiteral _ _ _ fields) => fields.lookup component
  | _ => none

def hasCompleteRangeCache : Bool := planned.fields.all fun field => field.astValue.isSome

/-- a field of an item of a range, from the cache of the states or of the field -/
def rangeField (handle : String) (index : Expr) (name : String) : Option Expr := do
  let _ ← planned.fields.find? fun field => field.name = name ∧ field.astValue.isSome
  if planned.hasCompleteRangeCache then
    some (.fieldAccess defaultSpan (.arrayIndex defaultSpan
      (.generated (hiddenConsumedInputAuthoredCacheName handle)) index) name)
  else
    some (.arrayIndex defaultSpan
      (.generated (hiddenConsumedInputFieldCacheName handle name)) index)

/-- the state of an item of a range -/
def completeRangeItem (handle : String) (index : Expr) : Option Expr :=
  if planned.hasCompleteRangeCache then
    some (.arrayIndex defaultSpan (.generated (hiddenConsumedInputAuthoredCacheName handle)) index)
  else none

def completeAuthored : Option Expr :=
  match planned.complete with
  | some complete => if isIdentifier complete then some (.generated complete) else none
  | none => do
    let fields ← planned.fields.mapM fun field => do
      let value ← field.astValue
      some (field.name, value)
    some (.structLiteral defaultSpan planned.authoredSilType defaultSpan fields)

def unavailableAuthoredState : String :=
  match planned.fields.find? fun field => field.astValue.isNone with
  | some field =>
    s!"expanded input state `{planned.source}` from target `{planned.target}` cannot be " ++
      s!"materialized without a validated preimage for field `{field.name}`"
  | none => s!"cannot lower authored state for `{planned.reference}`"

def unavailableField (name : String) : String :=
  if planned.fields.any fun field => field.name = name then
    s!"expanded input field `{name}` cannot be projected from authenticated physical state " ++
      "without its validated preimage"
  else s!"state `{planned.source}` has no field `{name}`"

end PlannedEntryInputReference

/-! ## lowering -/

/-- what the planners know of an entry body -/
structure BodyLowering where
  /-- the binding of the name at a span -/
  binding : Span → Option Binding
  bindings : BodyBindings
  text : Span → String
  /-- the input reference that a path stands for -/
  referenceUses : Span → Option PlannedEntryInputReference
  active : PlannedEntryInputReference
  /-- the field of the actor that a site reads -/
  actorField : Span → Option String
  /-- the index name of the singleton output whose value a site reads -/
  valueUse : Span → Option String
  /-- whether a function takes an authored state at a position -/
  stateParameter : Binding → Nat → Bool
  /-- the state that a `digest` operand is proven to have, and the digest of a variable of it -/
  digestOperand : Span → Option String
  digestHelperName : String → String
  authoredStatePayloadDigest : String → String → Option Expr
  /-- the state that a struct literal names: its stored fields with their virtual slots, and the
  digest fields of its expansion with their states -/
  stateTypeSource : Span → Except String (Option String)
  typeName : String → Span → String
  storageFields : String → Except String (List (String × Bool))
  expansionDigests : String → List (String × String)
  /-- the witness names of the observed output fields of a state's field -/
  observedOutputFields : String → String → List String

/-- a lowered expression, with the errors of its nodes -/
abbrev Lowered (α : Type) := α × List String

/-- an index that is a literal below the least count, or is checked when it runs -/
def checkedRangeIndex (index : Expr) (range : RangeValueLocation) : Expr :=
  match index with
  | .int span value =>
    if (value : Int) < range.minimum then .int span value
    else .apply hiddenCheckedRangeIndexName [.int span value, .generated range.count]
  | index => .apply hiddenCheckedRangeIndexName [index, .generated range.count]

/-- a position after the first one of its range, without an addition of zero -/
def rangePosition (range : RangeValueLocation) (checked : Expr) : Expr :=
  if range.firstIndex = 0 then checked
  else .add defaultSpan (.int defaultSpan range.firstIndex) checked

namespace BodyLowering
variable (body : BodyLowering)

def inputValue (span : Span) : Option InputValueLocation :=
  body.bindings.inputValue (body.binding span)

/-- the range of the input handle at a span -/
def inputRange (span : Span) : Option (String × RangeValueLocation) :=
  match body.inputValue span with
  | some (.range covenantId range) => some (covenantId, range)
  | some .singleton | none => none

def outputRange (span : Span) : Option RangeValueLocation :=
  body.bindings.outputRange (body.binding span)

/-- the input reference that an identifier or a field access stands for -/
def referenceAst (expr : Expr) : Option PlannedEntryInputReference :=
  match expr with
  | .identifier span _ => body.referenceUses span
  | .fieldAccess span _ _ => body.referenceUses span
  | _ => none

/-! ### calls -/

/-- an argument that is an input reference where an authored state is expected -/
def referenceArgument (nameSpan : Span) (args : List Expr) : Option String := do
  let callable ← body.binding nameSpan
  args.zipIdx.findSome? fun arg =>
    match arg.1 with
    | .identifier span handle =>
      if body.stateParameter callable arg.2 ∧ (body.referenceUses span).isSome then
        some s!"input reference `{handle}` is not an authored state value; use `state({handle})`"
      else none
    | _ => none

/-- `digest(value)`, with the value lowered -/
def lowerDigest (value : Expr) (lowered : Lowered Expr) : Lowered Expr :=
  let unchanged := fun error => (.call value.span "digest" value.span [value], [error])
  match value with
  | .fieldAccess _ source "state" =>
    match body.referenceAst source with
    | some reference => unchanged
        (s!"input reference `{reference.reference}` has no `.state` member; use " ++
          s!"`state({reference.reference})` for complete authored state or project a field directly")
    | none => operand value lowered
  | value => operand value lowered
where
  operand (value : Expr) (lowered : Lowered Expr) : Lowered Expr :=
    match body.digestOperand value.span with
    | none => (lowered.1, ["`digest(...)` requires a proven authored state value, but `" ++
        body.text value.span ++ "` has no known source type"])
    | some state =>
      match lowered.1 with
      | .identifier _ name =>
        match body.authoredStatePayloadDigest state name with
        | some digest => (digest, lowered.2)
        | none => (lowered.1, lowered.2 ++ [s!"cannot lower authored state digest for `{state}`"])
      | expr => (.apply (body.digestHelperName state) [expr], lowered.2)

/-- `state(reference)`, with the index of a ranged reference lowered -/
def lowerState (reference : Expr) (index : Lowered Expr) : Lowered Expr :=
  let unchanged := fun error => (.apply "state" [reference], index.2 ++ [error])
  let unknown := "`state(...)` requires one visible entry input reference, but `" ++
    body.text reference.span ++ "` is not one"
  match reference with
  | .arrayIndex _ (.identifier span handle) _ =>
    match body.inputRange span, body.referenceUses span with
    | some (_, range), some planned =>
      match planned.completeRangeItem handle (checkedRangeIndex index.1 range) with
      | some item => (item, index.2)
      | none => unchanged planned.unavailableAuthoredState
    | _, _ => unchanged unknown
  | reference =>
    match body.referenceAst reference with
    | some planned =>
      match planned.completeAuthored with
      | some complete => (complete, [])
      | none => unchanged planned.unavailableAuthoredState
    | none => unchanged unknown

/-- the digest of the authored payload of a reference -/
def referenceDigest (args : List Expr) : Option Expr :=
  match args with
  | [.call _ "state" _ [reference]] => do
    let planned ← body.referenceAst reference
    planned.payloadDigest
  | _ => none

/-! ### struct literals -/

/-- the stored fields of the state that a literal constructs -/
def checkStateFields (name : String) (nameSpan : Span) (fields : List (String × Expr)) :
    Except String (Option (String × List (String × Bool))) := do
  rejectIf (fields.any fun field => field.1.isEmpty)
    "state constructor component requires a named field"
  match ← body.stateTypeSource nameSpan with
  | none => return none
  | some source =>
    let storage ← body.storageFields source
    match (body.expansionDigests source).find? fun digest => fields.any fun field =>
        field.1 = digest.1 ∧ isUnnamedLiteral field.2 with
    | some digest => .error (s!"state `{body.typeName name nameSpan}` constructor slot " ++
        s!"`{digest.1}` must use `{digest.2} \x7b ... \x7d`")
    | none => return some (source, storage)
where
  isUnnamedLiteral : Expr → Bool
    | .structLiteral _ name _ _ => name.isEmpty
    | _ => false

/-- the virtual slots that a literal leaves out, from the witnesses of observed outputs -/
def virtualFields (source : String) (storage : List (String × Bool))
    (fields : List (String × Expr)) : List (String × Expr) :=
  storage.filterMap fun field =>
    if field.2 ∧ ¬ (fields.any fun candidate => candidate.1 = field.1) then
      match body.observedOutputFields source field.1 with
      | [witness] => some (field.1, .generated witness)
      | _ => none
    else none

/-- the fields of a literal in storage order -/
def arrangeFields (state : Option (String × List (String × Bool))) (fields : List (String × Expr)) :
    List (String × Expr) :=
  match state with
  | none => fields
  | some (source, storage) =>
    let place := fun (field : String × Expr) =>
      (storage.findIdx? fun candidate => candidate.1 = field.1).elim 0 (· + 1)
    (fields ++ body.virtualFields source storage fields).mergeSort fun a b => place a ≤ place b

def lowerStructLiteral (span : Span) (name : String) (nameSpan : Span)
    (fields : List (String × Expr)) (lowered : Lowered (List (String × Expr))) : Lowered Expr :=
  match body.checkStateFields name nameSpan fields with
  | .error error => (.structLiteral span name nameSpan fields, [error])
  | .ok state => (.structLiteral span name nameSpan (body.arrangeFields state lowered.1), lowered.2)

/-! ### field accesses -/

/-- a field of an item of an input range -/
def lowerInputItem (planned : PlannedEntryInputReference) (handle covenantId : String)
    (range : RangeValueLocation) (field : String) (index : Expr) : Lowered Expr :=
  let checked := checkedRangeIndex index range
  let inputIndex := .apply "OpCovInputIdx" [.generated covenantId, rangePosition range checked]
  match field with
  | "value" => (.inputValue defaultSpan inputIndex, [])
  | "cov_id" => (.apply "OpInputCovenantId" [inputIndex], [])
  | field =>
    match planned.rangeField handle checked field with
    | some value => (value, [])
    | none => (inputIndex, [planned.unavailableField field])

/-- the value of an item of an output range -/
def lowerOutputItem (range : RangeValueLocation) (index : Expr) : Lowered Expr :=
  (.outputValue defaultSpan (.apply "OpAuthOutputIdx"
    [.activeInputIndex defaultSpan, rangePosition range (checkedRangeIndex index range)]), [])

/-- a member of a reference that is an error, a component of an expanded field of the actor, or a
field of `self` -/
def plannedMember (span : Span) (source : Expr) (field : String) : Option (Lowered Expr) :=
  let legacy : Option (Lowered Expr) := if field = "state" then
      (body.referenceAst source).map fun reference => (.fieldAccess span source field,
        [s!"input reference `{reference.reference}` has no `.state` member; use " ++
          s!"`state({reference.reference})` for complete authored state"])
    else none
  let expanded := (body.actorField source.span).bind fun name => body.active.expandedField name field
  let ownField := match source with
    | .identifier _ "self" => body.active.projectField field
    | _ => none
  legacy.or ((expanded.or ownField).map fun value => (value, []))

/-- the value of a singleton output, and the members of an input reference -/
def plannedField (span : Span) (source : Expr) (field : String) : Option (Lowered Expr) :=
  let reference := body.referenceAst source
  let outputValue : Option Expr := if field = "value" then
      (body.valueUse span).map fun index => .outputValue defaultSpan (.generated index)
    else none
  let member : Option Expr := reference.bind fun planned =>
    if field = "value" then some (.inputValue defaultSpan planned.inputIndex)
    else if field = "cov_id" then some (.apply "OpInputCovenantId" [planned.inputIndex])
    else planned.projectField field
  (outputValue.or member).map fun value => (value, [])

/-- the member of an item, when the handle is an input range with a planned reference -/
def inputItem (handleSpan : Span) (handle field : String) (index : Expr) : Option (Lowered Expr) := do
  let (covenantId, range) ← body.inputRange handleSpan
  let planned ← body.referenceUses handleSpan
  some (lowerInputItem planned handle covenantId range field index)

/-- the value of an item, when the handle is an output range -/
def outputItem (handleSpan : Span) (field : String) (index : Expr) : Option (Lowered Expr) := do
  let range ← body.outputRange handleSpan
  if field = "value" then some (lowerOutputItem range index) else none

/-- an input item is no value; no array of the contract has the name of an output, so the item of an
output stays as it is -/
def keptItem (span itemSpan handleSpan : Span) (handle field : String) (index : Expr) :
    Lowered Expr :=
  let item := Expr.arrayIndex itemSpan (.identifier handleSpan handle) index
  if (body.inputRange handleSpan).isSome then
    (item, [s!"ranged input item `{body.text itemSpan}` is an input reference; use " ++
      s!"`state({body.text itemSpan})` for an authored state value"])
  else (.fieldAccess span item field, [])

/-- a field of an indexed handle, when it is the handle of a range; `lowered` is the index -/
def rangeItem (span itemSpan handleSpan : Span) (handle field : String) (index : Expr)
    (lowered : Lowered Expr) : Option (Lowered Expr) :=
  let source := Expr.arrayIndex itemSpan (.identifier handleSpan handle) index
  if (body.inputRange handleSpan).isSome ∨ (body.outputRange handleSpan).isSome then
    let result := ((((body.plannedMember span source field).or
      (body.inputItem handleSpan handle field lowered.1)).or
      (body.outputItem handleSpan field lowered.1)).or
      (body.plannedField span source field)).getD
      (body.keptItem span itemSpan handleSpan handle field lowered.1)
    some (result.1, lowered.2 ++ result.2)
  else none

/-! ### expressions -/

mutual

/-- the lowered expression, and the errors of its nodes -/
def visitExpr : Expr → Lowered Expr
  | .call span name nameSpan args =>
    match body.referenceArgument nameSpan args with
    | some error => (.call span name nameSpan args, [error])
    | none =>
      if name = "digest" then
        match args, visitAll args with
        | [value], ([lowered], errors) =>
          match body.referenceDigest args with
          | some digest => (digest, [])
          | none => body.lowerDigest value (lowered, errors)
        | args, _ => (.call span name nameSpan args,
            ["`digest(...)` requires exactly one authored state value"])
      else if name = "state" then
        match args with
        | [.arrayIndex itemSpan source index] =>
          body.lowerState (.arrayIndex itemSpan source index) (visitExpr index)
        | [reference] => body.lowerState reference (reference, [])
        | args => (.call span name nameSpan args,
            ["`state(...)` requires exactly one input reference"])
      else
        let lowered := visitAll args
        (.call span name nameSpan lowered.1, lowered.2)
  | .structLiteral span name nameSpan fields =>
    body.lowerStructLiteral span name nameSpan fields (visitFields fields)
  | .fieldAccess span (.arrayIndex itemSpan (.identifier handleSpan handle) index) field =>
    let lowered := visitExpr index
    match body.rangeItem span itemSpan handleSpan handle field index lowered with
    | some result => result
    | none =>
      let source := Expr.arrayIndex itemSpan (.identifier handleSpan handle) index
      match (body.plannedMember span source field).or (body.plannedField span source field) with
      | some planned => planned
      | none =>
        let handle := visitExpr (.identifier handleSpan handle)
        (.fieldAccess span (.arrayIndex itemSpan handle.1 lowered.1) field, handle.2 ++ lowered.2)
  | .fieldAccess span source field =>
    match (body.plannedMember span source field).or (body.plannedField span source field) with
    | some planned => planned
    | none =>
      let lowered := visitExpr source
      (.fieldAccess span lowered.1 field, lowered.2)
  | .identifier span name =>
    match (body.actorField span).bind body.active.projectField with
    | some value => (value, [])
    | none => (.identifier span name, [])
  | .length span (.identifier handleSpan handle) =>
    match (body.inputRange handleSpan).map Prod.snd |>.or (body.outputRange handleSpan) with
    | some range => (.generated range.count, [])
    | none =>
      let lowered := visitExpr (.identifier handleSpan handle)
      (.length span lowered.1, lowered.2)
  | .length span source =>
    let lowered := visitExpr source
    (.length span lowered.1, lowered.2)
  | .arrayIndex span (.identifier handleSpan handle) index =>
    match body.inputRange handleSpan with
    | some _ => (.arrayIndex span (.identifier handleSpan handle) index,
        [s!"ranged input item `{body.text span}` is an input reference; use " ++
          s!"`state({body.text span})` for an authored state value"])
    | none =>
      let handle := visitExpr (.identifier handleSpan handle)
      let lowered := visitExpr index
      (.arrayIndex span handle.1 lowered.1, handle.2 ++ lowered.2)
  | .arrayIndex span source index =>
    let source := visitExpr source
    let index := visitExpr index
    (.arrayIndex span source.1 index.1, source.2 ++ index.2)
  | .neg span expr =>
    let lowered := visitExpr expr
    (.neg span lowered.1, lowered.2)
  | .add span left right =>
    let left := visitExpr left
    let right := visitExpr right
    (.add span left.1 right.1, left.2 ++ right.2)
  | .inputValue span index =>
    let lowered := visitExpr index
    (.inputValue span lowered.1, lowered.2)
  | .outputValue span index =>
    let lowered := visitExpr index
    (.outputValue span lowered.1, lowered.2)
  | .node span kind exprs =>
    let lowered := visitAll exprs
    (.node span kind lowered.1, lowered.2)
  | .int span value => (.int span value, [])
  | .activeInputIndex span => (.activeInputIndex span, [])

def visitAll : List Expr → Lowered (List Expr)
  | [] => ([], [])
  | expr :: exprs =>
    let first := visitExpr expr
    let rest := visitAll exprs
    (first.1 :: rest.1, first.2 ++ rest.2)

def visitFields : List (String × Expr) → Lowered (List (String × Expr))
  | [] => ([], [])
  | (name, expr) :: fields =>
    let first := visitExpr expr
    let rest := visitFields fields
    ((name, first.1) :: rest.1, first.2 ++ rest.2)

end

/-- the lowered expressions of a body, unless one of them is in error -/
def lowerBody (exprs : List Expr) : Except String (List Expr) :=
  let lowered := body.visitAll exprs
  match lowered.2.getLast? with
  | some error => .error error
  | none => .ok lowered.1

end BodyLowering

end Argent.Codegen
