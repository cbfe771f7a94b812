import Argent.Model.Validate
import Argent.Model.Witnesses
import Argent.Sil.Script

/-!
# Checks of the current covenant

The statements that `codegen/sil/body.rs` and `codegen/sil/state_boundary.rs` emit for the inputs and
the outputs of an entry's own covenant, with the generated names of `codegen/sil/names.rs`.  The
caches of ranged inputs, which only authored expressions read, are in `RangeCache`.

* `currentInputPrelude`       position, count and template checks of the inputs;
* `currentOutputPrelude`      count and index checks of the outputs;
* `currentGroupChecks`        both, for one entry.
-/

set_option linter.unusedSectionVars false

namespace Argent.Codegen
open Argent.Model Argent.Sil

/-! ## names -/

section
variable (name : String)

def hiddenCovIdName : String := RESERVED_GENERATED_PREFIX ++ "cov_id"

def hiddenInputIdxName : String := RESERVED_GENERATED_PREFIX ++ name ++ "_input_idx"
def hiddenInputCountName : String := RESERVED_GENERATED_PREFIX ++ name ++ "_count"
def hiddenInputPositionName : String := RESERVED_GENERATED_PREFIX ++ name ++ "_position"
def hiddenConsumedInputStateName : String := RESERVED_GENERATED_PREFIX ++ name ++ "_state"
def hiddenOutputIdxName : String := RESERVED_GENERATED_PREFIX ++ name ++ "_output_idx"
def hiddenOutputCountName : String := RESERVED_GENERATED_PREFIX ++ name ++ "_output_count"
def hiddenOutputPositionName : String := RESERVED_GENERATED_PREFIX ++ name ++ "_output_position"

def hiddenWitnessPrefixName : String :=
  RESERVED_GENERATED_PREFIX ++ hiddenActorSuffix name ++ "_prefix"
def hiddenWitnessSuffixName : String :=
  RESERVED_GENERATED_PREFIX ++ hiddenActorSuffix name ++ "_suffix"
def hiddenWitnessPrefixLenName : String :=
  RESERVED_GENERATED_PREFIX ++ hiddenActorSuffix name ++ "_prefix_len"
def hiddenWitnessSuffixLenName : String :=
  RESERVED_GENERATED_PREFIX ++ hiddenActorSuffix name ++ "_suffix_len"

end

/-! ## expressions -/

/-- `require(left op right)` -/
def comparison (op : BinaryOp) (left right : SilExpr) : SilStatement :=
  .require (.binary op left right)

def number (n : Nat) : SilExpr := .int n

/-- `covenant`'s input at `position` -/
def covInputIdx (covenant : String) (position : SilExpr) : SilExpr :=
  .call .opCovInputIdx [.identifier covenant, position]

def covInputCount (covenant : String) : SilExpr :=
  .call .opCovInputCount [.identifier covenant]

def authOutputCount : SilExpr := .call .opAuthOutputCount [.activeInputIndex]

/-- the count less the items outside the range, without a subtraction of zero -/
def countWithout (count : SilExpr) (excluded : Nat) : SilExpr :=
  if excluded = 0 then count else .binary .sub count (number excluded)

/-- a position after a first one, without an addition of zero -/
def positionFrom (first : Nat) (position : String) : SilExpr :=
  if first = 0 then .identifier position else .binary .add (number first) (.identifier position)

/-! ## inputs -/

def groupPolicyChecks : CurrentInputGroupPolicy → List SilStatement
  | .batchable => []
  | .leaderRanged =>
    [comparison .eq (covInputIdx hiddenCovIdName (number 0)) .activeInputIndex]
  | .leaderFixed count =>
    comparison .eq (covInputCount hiddenCovIdName) (number count) ::
      if 1 < count then
        [comparison .eq (covInputIdx hiddenCovIdName (number 0)) .activeInputIndex]
      else []
  | .delegate minimumCount =>
    [comparison .ge (covInputCount hiddenCovIdName) (number minimumCount),
      comparison .ne (covInputIdx hiddenCovIdName (number 0)) .activeInputIndex]

/-- The covenant domain of a singleton app needs no template.  The lengths come from the template's
witness: they are passed, or measured on its prefix and suffix. -/
def inputTemplateProof (witnesses : List TemplateWitnessSpec) (actor : ActorModel)
    (entry : EntryModel) (interaction : EntryInteraction) (reference : InputReference) :
    Except String InputTemplateProof :=
  match reference.authentication with
  | .covenantDomain => .ok .covenantDomain
  | .template =>
    match reference.target.bind (templateWitness? witnesses) with
    | none =>
      .error (s!"entry `{actor.name}::{entry.name}` has no template witness plan for consumed " ++
        s!"actor `{interaction.handle}`")
    | some witness =>
      let template := SilExpr.identifier (hiddenTemplateName witness.actor)
      match witness.form with
      | .bytes => .ok (.template
          (.call .length [.identifier (hiddenWitnessPrefixName witness.actor)])
          (.call .length [.identifier (hiddenWitnessSuffixName witness.actor)]) template)
      | .len => .ok (.template
          (.identifier (hiddenWitnessPrefixLenName witness.actor))
          (.identifier (hiddenWitnessSuffixLenName witness.actor)) template)

/-- find the input at a position of the covenant and authenticate it -/
def readConsumedInput (handle : String) (position : SilExpr) (proof : InputTemplateProof) :
    List SilStatement :=
  [.define (hiddenInputIdxName handle) (covInputIdx hiddenCovIdName position),
    .readInput (hiddenConsumedInputStateName handle) (.identifier (hiddenInputIdxName handle)) proof]

/-- authenticate each member of a ranged current-covenant consume -/
def rangedCurrentInput (handle : String) (bounds : RangeBounds) (start singletonCount : Nat)
    (slotOffset : Nat) (proof : InputTemplateProof) : List SilStatement :=
  let count := hiddenInputCountName handle
  let position := hiddenInputPositionName handle
  [.define count (countWithout (covInputCount hiddenCovIdName) (slotOffset + singletonCount)),
    comparison .ge (.identifier count) (.int bounds.minimum),
    comparison .le (.identifier count) (.int bounds.maximum),
    .loop position (.int 0) (.identifier count) (.int bounds.maximum)
      (readConsumedInput handle (positionFrom (slotOffset + start) position) proof)]

def consumedInput (slotOffset : Nat) (interaction : EntryInteraction) (proof : InputTemplateProof) :
    Except String (List SilStatement) :=
  match interaction.cardinality, interaction.location with
  | .range bounds, .range start singletonCount =>
    .ok (rangedCurrentInput interaction.handle bounds start singletonCount slotOffset proof)
  | .one, .fromStart index =>
    .ok (readConsumedInput interaction.handle (number (slotOffset + index)) proof)
  | .one, .fromEnd distance =>
    .ok (readConsumedInput interaction.handle
      (.binary .sub (covInputCount hiddenCovIdName) (number distance)) proof)
  | .one, .range _ _ => .error "singleton input has no range location"
  | .range _, .fromStart _ | .range _, .fromEnd _ =>
    .error "ranged current input has a ranged location"

section
variable (app : App) (plan : CompilerRoutePlan) (actor : ActorModel) (entry : EntryModel)

def defineCovId : SilStatement :=
  .define hiddenCovIdName (.call .opInputCovenantId [.activeInputIndex])

/-- the rules of a group that is not batched, and its authenticated inputs -/
def consumedGroupChecks (witnesses : List TemplateWitnessSpec) (inputs : EntryInputPlan) :
    Except String (List SilStatement) :=
  let policy := inputs.currentGroupPolicy
  if policy = .batchable then .ok []
  else do
    let reads ← inputs.consumed.mapM fun input => do
      let proof ← inputTemplateProof witnesses actor entry input.1 input.2
      consumedInput policy.slotOffset input.1 proof
    return defineCovId :: groupPolicyChecks policy ++ reads.flatten

/-- a leader entry that may create no output cannot replace a delegate -/
def optionalDelegateGuard (inputs : EntryInputPlan) : List SilStatement :=
  if inputs.requiresOptionalDelegateGuard then
    [defineCovId, comparison .eq (covInputIdx hiddenCovIdName (number 0)) .activeInputIndex]
  else []

/-- current-covenant input authentication and group-position rules -/
def currentInputPrelude : Except String (List SilStatement) := do
  let inputs ← entryInputPlan app actor entry
  let witnesses ← templateWitnesses app plan actor entry
  let checks ← consumedGroupChecks actor entry witnesses inputs
  return checks ++ optionalDelegateGuard inputs

/-! ## outputs -/

def outputLocation (interaction : EntryInteraction) : Except String (List SilStatement) :=
  match interaction.cardinality, interaction.location with
  | .range bounds, .range _ singletonCount =>
    let count := hiddenOutputCountName interaction.handle
    .ok [.define count (countWithout authOutputCount singletonCount),
      comparison .ge (.identifier count) (.int bounds.minimum),
      comparison .le (.identifier count) (.int bounds.maximum)]
  | .one, .fromStart index =>
    .ok [.define (hiddenOutputIdxName interaction.handle)
      (.call .opAuthOutputIdx [.activeInputIndex, number index])]
  | .one, .fromEnd distance =>
    .ok [.define (hiddenOutputIdxName interaction.handle)
      (.call .opAuthOutputIdx [.activeInputIndex,
        .binary .sub authOutputCount (number distance)])]
  | .one, .range _ _ => .error "singleton output has no range location"
  | .range _, .fromStart _ | .range _, .fromEnd _ =>
    .error "ranged current output has no planned range location"

/-- the number of current outputs, when no output is a range -/
def exactCurrentOutputCount : Option Nat :=
  let outputs := entry.current.outputs.items
  if outputs.any (·.cardinality.isRange) then none else some outputs.length

/-- the coordinated leader authorizes every current-covenant continuation -/
def coordinatesCurrentOutputs : Bool :=
  decide (entry.kind = .leader) && !entry.current.inputs.items.isEmpty

/-- current-covenant output count, index and coordinated leader checks -/
def currentOutputPrelude : Except String (List SilStatement) := do
  let count := match exactCurrentOutputCount entry with
    | some count => [comparison .eq authOutputCount (number count)]
    | none => []
  let locations ← entry.current.outputs.items.mapM outputLocation
  let coordination := if coordinatesCurrentOutputs entry then
      [comparison .eq (.call .opCovOutputCount [.identifier hiddenCovIdName]) authOutputCount]
    else []
  return count ++ locations.flatten ++ coordination

/-- the checks of an entry on the inputs and outputs of its own covenant -/
def currentGroupChecks : Except String (List SilStatement) := do
  let inputs ← currentInputPrelude app plan actor entry
  let outputs ← currentOutputPrelude entry
  return inputs ++ outputs

end

end Argent.Codegen
