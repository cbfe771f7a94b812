import Argent.Codegen.CurrentGroup
import Argent.Model.Positions

/-!
# Indexes into the current covenant

Where the statements of an entry look into the group of its covenant's inputs and into the outputs
that it authorizes, and the indexes that `codegen/artifact.rs` fixes for the runtime.  The actors of
the route plan and its recipes are left out.

* `GroupIndex`                 an index that is computed once, or in each iteration of a loop;
* `groupIndexes`               the indexes that statements look at;
* `inputIndex`, `outputIndex`      the index of an item;
* `fixedInteractionIndex`      the index of an item in the artifact.
-/

set_option linter.unusedSectionVars false

namespace Argent.Codegen
open Argent.Model Argent.Sil

/-! ## indexes of statements -/

/-- an index that is computed once, or for each `position` below `count` -/
inductive GroupIndex where
  | once (index : SilExpr)
  | each (position : String) (count index : SilExpr)
deriving Repr

/-- the position at which a call of `look` looks into its group -/
def lookedUp (look : Builtin) : SilExpr → Option SilExpr
  | .call f [_, position] => if f = look then some position else none
  | _ => none

/-- the definition of a looked up item -/
def definedIndex (look : Builtin) : SilStatement → Option SilExpr
  | .define _ value => lookedUp look value
  | _ => none

/-- the indexes that one statement looks at -/
def statementIndexes (look : Builtin) : SilStatement → List GroupIndex
  | .loop position _ count _ body =>
    (body.filterMap (definedIndex look)).map (.each position count)
  | statement => ((definedIndex look statement).map .once).toList

/-- the indexes that a sequence of statements looks at -/
def groupIndexes (look : Builtin) (statements : List SilStatement) : List GroupIndex :=
  statements.flatMap (statementIndexes look)

/-- the values of an index -/
def GroupIndex.values (ctx : ScriptContext) (env : Env) : GroupIndex → Option (List Int)
  | once index => do
    let value ← index.eval ctx env
    let value ← toInt? value
    some [value]
  | each position count index => do
    let count ← count.eval ctx env
    let count ← toInt? count
    (List.range count.toNat).mapM fun (k : Nat) => do
      let value ← index.eval ctx ((position, .int k) :: env)
      toInt? value

/-! ## the indexes of items -/

/-- the index of a consumed item among the inputs of the covenant -/
def inputIndex (slotOffset : Nat) (interaction : EntryInteraction) : GroupIndex :=
  match interaction.location with
  | .fromStart index => .once (number (slotOffset + index))
  | .range start _ =>
    .each (hiddenInputPositionName interaction.handle)
      (.identifier (hiddenInputCountName interaction.handle))
      (positionFrom (slotOffset + start) (hiddenInputPositionName interaction.handle))
  | .fromEnd distance => .once (.binary .sub (covInputCount hiddenCovIdName) (number distance))

/-- the index of an emitted item among the outputs that the active input authorizes -/
def outputIndex (interaction : EntryInteraction) : GroupIndex :=
  match interaction.location with
  | .fromStart index => .once (number index)
  | .range start _ =>
    .each (hiddenOutputPositionName interaction.handle)
      (.identifier (hiddenOutputCountName interaction.handle))
      (positionFrom start (hiddenOutputPositionName interaction.handle))
  | .fromEnd distance => .once (.binary .sub authOutputCount (number distance))

/-- the loop that validates the outputs of a range, each at its index by `validate` -/
def rangedOutputValidation (handle : String) (bounds : RangeBounds) (start : Nat)
    (validate : SilExpr → List SilStatement) : SilStatement :=
  let position := hiddenOutputPositionName handle
  .loop position (.int 0) (.identifier (hiddenOutputCountName handle)) (.int bounds.maximum)
    (validate (.call .opAuthOutputIdx [.activeInputIndex, positionFrom start position]))

/-! ## the indexes of the artifact -/

/-- the index of an item when it does not depend on the length of a range before it -/
def fixedInteractionIndex (location : InteractionLocation) (sectionOffset : Nat) : Option Nat :=
  match location with
  | .fromStart index => some (sectionOffset + index)
  | .range _ _ | .fromEnd _ => none

structure RouteInputArtifact where
  name : String
  covIndex : Option Nat
deriving DecidableEq, Repr

structure RouteOutputHandleArtifact where
  name : String
  authIndex : Option Nat
deriving DecidableEq, Repr

/-- the inputs and outputs of an entry's route plan -/
structure EntryRoutePlanArtifact where
  activeInput : RouteInputArtifact
  leaderInput : Option RouteInputArtifact
  consumes : List RouteInputArtifact
  outputs : List RouteOutputHandleArtifact
deriving DecidableEq, Repr

section
variable (entry : EntryModel)

/-- the leader stands before the inputs that it consumes -/
def sectionOffset : Nat := if entry.kind = .leader then 1 else 0

def routeInput (interaction : EntryInteraction) : RouteInputArtifact :=
  ⟨interaction.handle, fixedInteractionIndex interaction.location (sectionOffset entry)⟩

def routeOutput (interaction : EntryInteraction) : RouteOutputHandleArtifact :=
  ⟨interaction.handle, fixedInteractionIndex interaction.location 0⟩

def entryRoutePlanArtifact : EntryRoutePlanArtifact :=
  let activeInput := ⟨"self", if entry.kind = .leader then some 0 else none⟩
  let consumes := entry.current.inputs.items.map (routeInput entry)
  { activeInput
    leaderInput := match entry.kind with
      | .leader => some activeInput
      | .delegate => consumes.head?
    consumes
    outputs := entry.current.outputs.items.map routeOutput }

end

end Argent.Codegen
