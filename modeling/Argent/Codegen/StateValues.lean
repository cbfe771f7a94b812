import Argent.Base.ScriptNumbers
import Argent.Base.Straightline
import Argent.Codegen.StateBoundary

/-!
# Values of state expressions

What the expressions of the state boundary stand for when a contract runs.

* `StateValue`               values of state fields and of states;
* `StateContext`             the script engine, and the values of the leaves;
* `StateExpr.eval`           the value of an expression;
* `StateContext.language`    the checks and definitions over these expressions.
-/

set_option linter.unusedSectionVars false

namespace Argent.Codegen
open Argent.Model Argent.Sil

/-! ## values -/

inductive StateValue where
  | int (value : Int)
  | bool (value : Bool)
  | byte (value : UInt8)
  | bytes (value : Bytes)
  | struct (fields : List (String × StateValue))

/-- the visible names, last definition first -/
abbrev StateEnv := List (String × StateValue)

/-- the script engine, and the values of authored and planned expressions -/
structure StateContext (α : Type) where
  numbers : ScriptNumbers
  blake3 : Bytes → Bytes
  authored : α → Option StateValue
  planned : SilExpr → Option StateValue

namespace StateContext
variable {α : Type} (ctx : StateContext α)

/-- the casts and built-in functions that are emitted at the boundary -/
def call (name : String) : List StateValue → Option StateValue
  | [.int value] =>
    if name = "__as_cast_byte[8]" then (ctx.numbers.num2bin 8 value).map .bytes
    else if name = "__as_cast_byte[1]" then (ctx.numbers.num2bin 1 value).map .bytes
    else if name = "int" ∨ name = "temporal" then some (.int value)
    else none
  | [.bool value] => if name = "__as_cast_int" then some (.int (if value then 1 else 0)) else none
  | [.byte value] => if name = "byte[]" then some (.bytes [value]) else none
  | [.bytes value] =>
    if name = "byte[]" ∨ name = s!"byte[{value.length}]" then some (.bytes value)
    else if name = "OpBin2Num" then (ctx.numbers.bin2num value).map .int
    else if name = "blake3" then some (.bytes (ctx.blake3 value))
    else none
  | _ => none

theorem call_bytes {name : String} {value : Bytes} : ctx.call name [.bytes value] =
    if name = "byte[]" ∨ name = s!"byte[{value.length}]" then some (.bytes value)
    else if name = "OpBin2Num" then (ctx.numbers.bin2num value).map .int
    else if name = "blake3" then some (.bytes (ctx.blake3 value))
    else none := rfl

theorem ne_arrayCast {name : String} (h : name.toList[1]? ≠ some 'y') (len : Nat) :
    ¬ (name = "byte[]" ∨ name = s!"byte[{len}]") := by
  intro hname
  obtain hname | hname := hname
  · rw [hname] at h
    exact h rfl
  · refine h ?_
    rw [hname, String.toList_append, String.toList_append]
    rfl

end StateContext

namespace StateValue

def field (name : String) : StateValue → Option StateValue
  | .struct fields => fields.lookup name
  | _ => none

def index : StateValue → StateValue → Option StateValue
  | .bytes value, .int index => (nth value index).map .byte
  | _, _ => none

/-- the bytes from `start` to `stop` -/
def slice : StateValue → StateValue → StateValue → Option StateValue
  | .bytes value, .int start, .int stop =>
    if 0 ≤ start ∧ start ≤ stop ∧ stop ≤ value.length then
      some (.bytes ((value.drop start.toNat).take (stop - start).toNat))
    else none
  | _, _, _ => none

def add : StateValue → StateValue → Option StateValue
  | .int left, .int right => some (.int (left + right))
  | .bytes left, .bytes right => some (.bytes (left ++ right))
  | _, _ => none

def eq : StateValue → StateValue → Option StateValue
  | .int left, .int right => some (.bool (decide (left = right)))
  | .bool left, .bool right => some (.bool (decide (left = right)))
  | .byte left, .byte right => some (.bool (decide (left = right)))
  | .bytes left, .bytes right => some (.bool (decide (left = right)))
  | _, _ => none

def not : StateValue → Option StateValue
  | .bool value => some (.bool !value)
  | _ => none

end StateValue

/-! ## expressions -/

mutual

def StateExpr.eval {α : Type} (ctx : StateContext α) (env : StateEnv) :
    StateExpr α → Option StateValue
  | .authored value => ctx.authored value
  | .generated expr => ctx.planned expr
  | .identifier name => env.lookup name
  | .int value => some (.int value)
  | .bytes value => some (.bytes value)
  | .field source name => do (← source.eval ctx env).field name
  | .index source index => do
    let source ← source.eval ctx env
    let index ← index.eval ctx env
    source.index index
  | .slice source start stop => do
    let source ← source.eval ctx env
    let start ← start.eval ctx env
    let stop ← stop.eval ctx env
    source.slice start stop
  | .call name args => do
    let args ← evalArgs ctx env args
    ctx.call name args
  | .add left right => do
    let left ← left.eval ctx env
    let right ← right.eval ctx env
    left.add right
  | .eq left right => do
    let left ← left.eval ctx env
    let right ← right.eval ctx env
    left.eq right
  | .ne left right => do
    let left ← left.eval ctx env
    let right ← right.eval ctx env
    let same ← left.eq right
    same.not
  | .structLiteral _ fields => do
    let fields ← evalFields ctx env fields
    some (.struct fields)

def evalArgs {α : Type} (ctx : StateContext α) (env : StateEnv) :
    List (StateExpr α) → Option (List StateValue)
  | [] => some []
  | arg :: args => do
    let value ← arg.eval ctx env
    let values ← evalArgs ctx env args
    some (value :: values)

def evalFields {α : Type} (ctx : StateContext α) (env : StateEnv) :
    List (String × StateExpr α) → Option (List (String × StateValue))
  | [] => some []
  | (name, field) :: fields => do
    let value ← field.eval ctx env
    let values ← evalFields ctx env fields
    some ((name, value) :: values)

end

section
variable {α : Type} {ctx : StateContext α} {env : StateEnv} {expr left right : StateExpr α}

theorem eval_stateIdentifier {name : String} :
    (StateExpr.identifier name : StateExpr α).eval ctx env = env.lookup name := by
  rw [StateExpr.eval]

theorem eval_stateField {name : String} {value : StateValue} (h : expr.eval ctx env = some value) :
    (expr.field name).eval ctx env = value.field name := by
  rw [StateExpr.eval, h]
  rfl

theorem eval_stateCall {name : String} {value : StateValue} (h : expr.eval ctx env = some value) :
    (StateExpr.call name [expr]).eval ctx env = ctx.call name [value] := by
  rw [StateExpr.eval, evalArgs, evalArgs, h]
  rfl

theorem eval_stateAdd {value value' : StateValue} (h : left.eval ctx env = some value)
    (h' : right.eval ctx env = some value') :
    (left.add right).eval ctx env = value.add value' := by
  rw [StateExpr.eval, h, h']
  rfl

theorem eval_concat {parts : List (StateExpr α)} {values : List Bytes}
    (h : List.Forall₂ (fun part value => part.eval ctx env = some (.bytes value)) parts values) :
    (StateExpr.concat parts).eval ctx env = some (.bytes values.flatten) := by
  have hfold : ∀ {parts : List (StateExpr α)} {values : List Bytes} {start : StateExpr α}
      {value : Bytes}, start.eval ctx env = some (.bytes value) →
      List.Forall₂ (fun part value => part.eval ctx env = some (.bytes value)) parts values →
        (parts.foldl .add start).eval ctx env = some (.bytes (value ++ values.flatten)) := by
    intro parts values start value hstart hall
    induction hall generalizing start value with
    | nil => rw [List.foldl_nil, hstart, List.flatten_nil, List.append_nil]
    | cons hpart _ ih =>
      rw [List.foldl_cons, ih (eval_stateAdd hstart hpart), List.flatten_cons, List.append_assoc]
  cases h with
  | nil =>
    rw [StateExpr.concat, StateExpr.eval]
    rfl
  | cons hpart hall =>
    rw [StateExpr.concat, hfold hpart hall, List.flatten_cons]

end

/-! ## statements -/

/-- a check accepts `true` -/
def StateContext.language {α : Type} (ctx : StateContext α) :
    Straightline.Language (StateExpr α) StateValue where
  eval := StateExpr.eval ctx
  holds value := match value with
    | .bool value => value
    | _ => false

/-- a check, or a definition of a name with its type -/
abbrev PreludeStatement (α : Type) := Straightline.Statement TypeRef (StateExpr α)

theorem passes_iff {α : Type} {ctx : StateContext α} {env : StateEnv} {condition : StateExpr α} :
    Straightline.Passes ctx.language env condition ↔
      condition.eval ctx env = some (.bool true) := by
  constructor
  · rintro ⟨value, hvalue, hholds⟩
    cases value with
    | bool value =>
      obtain rfl : value = true := hholds
      exact hvalue
    | int _ | byte _ | bytes _ | struct _ => cases hholds
  · intro h
    exact ⟨_, h, rfl⟩

end Argent.Codegen
