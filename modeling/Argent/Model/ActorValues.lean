import Argent.Resolve.Modules
import Argent.Base.Fallible

/-!
# Actor handles as values

`compiler/model/actor_value_policy.rs` and the value kinds of `compiler/model/source_values.rs`: which
values may be used as actor handles, before SIL makes byte arrays of them.

* `Expr`, `Statement`, `EntryStatement`      the bodies of a program;
* `SourceValues`      what is bound in a declaration, and `expression`, the source type of a value;
* `checkValue`      a value in a place that has a type;
* `validateActorValuePolicy`      the first value that is refused.
-/

set_option linter.unusedSectionVars false

namespace Argent.ActorValues
open Argent.Resolve (DeclId SymbolKind ModuleId)
open Argent.Fallible

/-! ## bodies -/

/-- the start and the end of a node in its source -/
abbrev Span := Nat × Nat

inductive Expr where
  | identifier (span : Span) (name : String)
  | call (span : Span) (name : String) (nameSpan : Span) (args : List Expr)
  | arrayIndex (span : Span) (source index : Expr)
  | fieldAccess (span : Span) (source : Expr) (field : String)
  /-- the name is empty when the literal names no type -/
  | structLiteral (span : Span) (name : String) (nameSpan : Span) (fields : List (String × Expr))
  | new (span : Span) (nameSpan : Span) (args : List Expr)
  | array (span : Span) (typeSpan : Span) (values : List Expr)
  | append (span : Span) (source : Expr) (args : List Expr)
  | slice (span : Span) (source start stop : Expr)
  | split (span : Span) (source index : Expr)
  /-- an operator, a literal or an introspection, with its operands -/
  | node (span : Span) (kind : String) (exprs : List Expr)

namespace Expr

def span : Expr → Span
  | identifier span _ | call span _ _ _ | arrayIndex span _ _ | fieldAccess span _ _
  | structLiteral span _ _ _ | new span _ _ | array span _ _ | append span _ _ | slice span _ _ _
  | split span _ _ | node span _ _ => span

def isIdentifier (expr : Expr) (name : String) : Bool :=
  match expr with
  | identifier _ name' => decide (name' = name)
  | _ => false

def isSplit : Expr → Bool
  | split _ _ _ => true
  | _ => false

def isArray : Expr → Bool
  | array _ _ _ => true
  | _ => false

def isStructLiteral : Expr → Bool
  | structLiteral _ _ _ _ => true
  | _ => false

end Expr

/-- a binding of a function call that is assigned -/
structure ParamBinding where
  name : String
  typeSpan : Span
deriving DecidableEq, Repr

structure StructBinding where
  fieldName : String
  name : String
  typeSpan : Span
  span : Span
deriving DecidableEq, Repr

inductive Statement where
  | variableDefinition (typeSpan : Span) (name : String) (expr : Option Expr)
  | assign (name : String) (nameSpan : Span) (expr : Expr)
  | returns (exprs : List Expr)
  | functionCall (nameSpan : Span) (args : List Expr)
  | functionCallAssign (bindings : List ParamBinding) (nameSpan : Span) (args : List Expr)
    (span : Span)
  | structDestructure (bindings : List StructBinding) (expr : Expr) (structNameSpan : Span)
  | stateFunctionCallAssign (bindings : List StructBinding) (nameSpan : Span) (args : List Expr)
    (targetStructSpan : Span)
  | tupleAssignment (leftTypeSpan : Span) (leftName : String) (rightTypeSpan : Span)
    (rightName : String) (expr : Expr)
  | block (body : List Statement)
  | ifElse (condition : Expr) (thenBranch elseBranch : List Statement)
  | forLoop (start stop maxIterations : Expr) (body : List Statement)
  /-- a requirement or a console output -/
  | plain (kind : String) (exprs : List Expr)

inductive Successor where
  | selfRef
  | constructed (actor state : Expr) (many : Bool)

/-- the statements of an entry; `becomes` are the routes of its own outputs or of a foreign group -/
inductive EntryStatement where
  | block (statements : List EntryStatement)
  | ifThen (condition : Expr) (thenBranch : EntryStatement)
  | ifElse (condition : Expr) (thenBranch elseBranch : EntryStatement)
  | becomes (routes : List Successor)
  | sil (statement : Statement)

/-! ## types -/

inductive ArrayDim where
  | dynamic
  | fixed (len : Nat)
  | constant (name : String)
  | inferred
deriving DecidableEq, Repr

inductive ResolvedTypeBase where
  | builtin (name : String)
  | state (id : DeclId)
  | actor (id : DeclId)
  | actorEnum (id : DeclId)
  | actorHandle (state : DeclId)
deriving DecidableEq, Repr

/-- the array of a declared type -/
inductive DeclaredDim where
  | dynamic
  | fixed (len : Nat)
deriving DecidableEq, Repr

structure ResolvedType where
  base : ResolvedTypeBase
  array : Option DeclaredDim
deriving DecidableEq, Repr

structure SourceValueType where
  base : ResolvedTypeBase
  dimensions : List ArrayDim
  /-- only the literal of a linked actor has the state that its own state expands -/
  literalBase : Option DeclId
deriving DecidableEq, Repr

namespace SourceValueType

def declared (ty : ResolvedType) : SourceValueType where
  base := ty.base
  dimensions := match ty.array with
    | some .dynamic => [.dynamic]
    | some (.fixed len) => [.fixed len]
    | none => []
  literalBase := none

/-- one value of a state -/
def ofState (state : DeclId) : SourceValueType := ⟨.state state, [], none⟩

variable (ty other : SourceValueType)

def element : Option SourceValueType :=
  if ty.dimensions = [] then none else some { ty with dimensions := ty.dimensions.dropLast }

/-- the same with another last dimension -/
def withLast (dim : ArrayDim) : Option SourceValueType :=
  if ty.dimensions = [] then none
  else some { ty with dimensions := ty.dimensions.dropLast ++ [dim] }

def appended (count : Nat) : Option SourceValueType :=
  match ty.dimensions.getLast? with
  | none => none
  | some (.fixed len) =>
    if len + count < UInt64.size then ty.withLast (.fixed (len + count)) else none
  | some .dynamic | some (.constant _) | some .inferred => some ty

def hasProvenShapeMismatch : Bool :=
  decide (ty.dimensions.length ≠ other.dimensions.length) ||
    (ty.dimensions.zip other.dimensions).any fun dims => match dims with
      | (.fixed left, .fixed right) => decide (left ≠ right)
      | (.dynamic, .fixed _) | (.fixed _, .dynamic) => true
      | _ => false

end SourceValueType

/-! ## declarations -/

structure AppMember where
  app : DeclId
  actor : DeclId
deriving DecidableEq, Repr

inductive ResolvedName where
  | module_ (id : ModuleId)
  | declaration (id : DeclId)
  | appMember (member : AppMember)
deriving DecidableEq, Repr

/-- numbered in the order of their binding -/
abbrev LocalId := Nat

inductive Binding where
  | source (name : ResolvedName)
  | enumVariant (enumeration actor : DeclId)
  | local (id : LocalId)
  | actorField
  | actorHelper (index : Nat)
  | clauseMember
  | builtin
  | runtimeRoot
deriving DecidableEq, Repr

/-- a global function, or a helper of an actor -/
structure CallableId where
  owner : DeclId
  member : Option Nat
deriving DecidableEq, Repr

structure CallableSignature where
  params : List ResolvedType
  result : Option ResolvedType
deriving DecidableEq, Repr

structure StateDigest where
  field : String
  state : String
deriving DecidableEq, Repr

structure StateExpansion where
  base : String
  digests : List StateDigest
deriving DecidableEq, Repr

structure StateDecl where
  fields : List String
  expansion : Option StateExpansion
deriving DecidableEq, Repr

/-- the resolved program with its table of types -/
structure Program where
  states : List DeclId
  stateDecl : DeclId → Option StateDecl
  listed : ∀ state declaration, stateDecl state = some declaration → state ∈ states
  /-- the state that an actor owns, by the names of its module -/
  actorState : DeclId → Option DeclId
  /-- the names that a declaration uses -/
  names : DeclId → String → Option ResolvedName
  stateFields : DeclId → Nat → Option ResolvedType
  /-- the type of a field of a linked state, which has no place in the table -/
  resolveFieldType : DeclId → Nat → Option ResolvedType
  callables : CallableId → Option CallableSignature
  constants : DeclId → Option ResolvedType
  declarationName : DeclId → String
  /-- the name of a declaration as a module writes it -/
  sourceDeclarationName : ModuleId → DeclId → Option String

namespace Program
variable (program : Program)

/-- the state at the end of the expansions of a state; `visited` are those on the way -/
def storageStateFrom : Nat → List DeclId → DeclId → Option DeclId
  | 0, _, _ => none
  | fuel + 1, visited, state =>
    if state ∈ visited then none
    else
      match program.stateDecl state with
      | none => none
      | some ⟨_, none⟩ => some state
      | some ⟨_, some expansion⟩ =>
        match program.names state expansion.base with
        | some (.declaration base) => storageStateFrom fuel (state :: visited) base
        | _ => none

def storageState (state : DeclId) : Option DeclId :=
  program.storageStateFrom (program.states.length + 1) [] state

/-- a field that a state declares itself -/
def declaredField (state : DeclId) (field : String) : Option SourceValueType := do
  let declaration ← program.stateDecl state
  let index ← declaration.fields.findIdx? fun candidate => decide (candidate = field)
  let ty ← (program.stateFields state index).or (program.resolveFieldType state index)
  some (.declared ty)

/-- a field of a value of a state; a digest has the state that it stands for -/
def stateField (state : DeclId) (field : String) : Option SourceValueType :=
  match program.stateDecl state with
  | none => none
  | some ⟨_, none⟩ => program.declaredField state field
  | some ⟨_, some expansion⟩ =>
    match expansion.digests.find? fun digest => decide (digest.field = field) with
    | some digest =>
      match program.names state digest.state with
      | some (.declaration state) => some (.ofState state)
      | _ => none
    | none => (program.storageState state).bind fun storage => program.declaredField storage field

def field (source : SourceValueType) (field : String) : Option SourceValueType :=
  if source.dimensions ≠ [] then none
  else
    match source.base with
    | .state state => program.stateField state field
    | .builtin _ | .actor _ | .actorEnum _ | .actorHandle _ => none

end Program

/-! ## source values -/

/-- what is bound in the bodies of one declaration -/
structure SourceValues where
  program : Program
  owner : DeclId
  references : Span → Option Binding
  /-- the types that are written out, by their start -/
  typeSites : Nat → Option SourceValueType
  locals : LocalId → Option SourceValueType
  /-- the inputs of an observed group -/
  observedInputs : LocalId × String → Option SourceValueType
  actorState : Option DeclId
  /-- the source text of a span -/
  text : Span → String

namespace SourceValues
variable (values : SourceValues)

def typeAt (span : Span) : Option SourceValueType := values.typeSites span.1

def callable (span : Span) : Option CallableSignature :=
  match values.references span with
  | some (.source (.declaration owner)) =>
    if owner.kind = .function then values.program.callables ⟨owner, none⟩ else none
  | some (.actorHelper member) => values.program.callables ⟨values.owner, some member⟩
  | _ => none

/-- the state of a named actor, as the handle that its name is the literal of -/
def actorLiteral (member : AppMember) : Option SourceValueType := do
  let state ← values.program.actorState member.actor
  some ⟨.actorHandle state, [], values.program.storageState state⟩

def namedValue (span : Span) (name : String) : Option SourceValueType :=
  match values.references span with
  | some (.local id) => values.locals id
  | some .actorField => values.actorState.bind fun state => values.program.field (.ofState state) name
  | some (.source (.declaration id)) =>
    if id.kind = .const then (values.program.constants id).map .declared
    else if id.kind = .actorEnum then some ⟨.actorEnum id, [.inferred], none⟩
    else none
  | some (.enumVariant enumeration _) => some ⟨.actorEnum enumeration, [], none⟩
  | some (.source (.appMember member)) =>
    if member.actor.kind = .actorEnum then some ⟨.actorEnum member.actor, [.inferred], none⟩
    else if member.actor.kind = .actor then values.actorLiteral member
    else none
  | _ => none

/-- an input of a group that the entry observes -/
def observedInput (source : Expr) (field : String) : Option SourceValueType :=
  match source with
  | .fieldAccess _ group "inputs" =>
    match values.references group.span with
    | some (.local id) => values.observedInputs (id, field)
    | _ => none
  | _ => none

/-- `self` of the actor -/
def isSelf (source : Expr) : Bool :=
  decide (values.references source.span = some .runtimeRoot) && source.isIdentifier "self"

/-- a call of `state` on the reference to an input -/
def isStateCall (name : String) (nameSpan : Span) : Bool :=
  decide (name = "state" ∧ values.references nameSpan = some .builtin)

mutual

/-- the source type of a value -/
def expression : Expr → Option SourceValueType
  | .identifier span name => values.namedValue span name
  | .call _ name nameSpan args =>
    if values.isStateCall name nameSpan then onlyExpression args
    else (values.callable nameSpan).bind fun signature => signature.result.map .declared
  | .arrayIndex _ source _ => (expression source).bind fun ty => ty.element
  | .fieldAccess _ source field =>
    match values.observedInput source field with
    | some ty => some ty
    | none =>
      if values.isSelf source then
        values.actorState.bind fun state => values.program.field (.ofState state) field
      else (expression source).bind fun ty => values.program.field ty field
  | .structLiteral _ _ nameSpan _ => values.typeAt nameSpan
  | .new _ nameSpan _ => values.typeAt nameSpan
  | .array _ typeSpan _ => values.typeAt typeSpan
  | .append _ source args => (expression source).bind fun ty => ty.appended args.length
  | .slice _ source _ _ => (expression source).bind fun ty => ty.withLast .dynamic
  | .split _ source _ => (expression source).bind fun ty => ty.withLast .inferred
  | .node _ _ _ => none

/-- the source type of the only value of a list -/
def onlyExpression : List Expr → Option SourceValueType
  | [] => none
  | reference :: rest => if rest.isEmpty then expression reference else none

end

def display (ty : SourceValueType) : String :=
  let sourceName := fun id =>
    (values.program.sourceDeclarationName values.owner.moduleId id).getD
      (values.program.declarationName id)
  let name := match ty.base with
    | .actorHandle state => s!"actor_type<{sourceName state}>"
    | .actorEnum id | .state id | .actor id => sourceName id
    | .builtin name => name
  ty.dimensions.foldl (fun name dim => match dim with
    | .fixed len => name ++ s!"[{len}]"
    | .constant len => name ++ s!"[{len}]"
    | .dynamic | .inferred => name ++ "[]") name

end SourceValues

/-! ## the policy -/

/-- an error at a place in the source of a declaration -/
structure PolicyError where
  owner : DeclId
  start : Nat
  message : String
deriving DecidableEq, Repr

/-- a handle of one type where a handle of another type is expected, and handles beside other values -/
def isIncompatible (expected actual : SourceValueType) : Bool :=
  match expected.base, actual.base with
  | .actorHandle expectedState, .actorHandle actualState =>
    decide (expectedState ≠ actualState ∧ actual.literalBase ≠ some expectedState) ||
      expected.hasProvenShapeMismatch actual
  | .actorHandle _, .state _ | .state _, .actorHandle _ | .actorEnum _, .actorHandle _ => true
  | _, _ => false

def isEnumAsHandle (expected actual : SourceValueType) : Bool :=
  match expected.base, actual.base with
  | .actorHandle _, .actorEnum _ => true
  | _, _ => false

section
variable (values : SourceValues)

/-- What is found wrong is listed in the order of the visit; the policy keeps the first. -/
def reject (span : Span) (message : String) : List PolicyError :=
  [⟨values.owner, span.1, message⟩]

def checkKnown (expected actual : SourceValueType) (span : Span) (declaration : Option String) :
    List PolicyError :=
  if isEnumAsHandle expected actual then
    let enumeration := values.display actual
    let suggestion := match declaration with
      | none => s!"use the explicit actor-enum type `{enumeration}` for in-app selection"
      | some name => s!"declare `{enumeration} {name} = {values.text span};` instead"
    reject values span
      (s!"actor_type<State> is an external actor handle, not an actor-enum selector; " ++ suggestion)
  else if isIncompatible expected actual then
    let expected := values.display expected
    let actual := values.display actual
    reject values span (match declaration with
      | none => s!"cannot use `{actual}` as `{expected}`"
      | some name =>
        s!"declares actor handle `{name}` as {expected}, but its initializer has {actual}")
  else []

/-- the source type of a value, in a place that has a type -/
def checkType (expected : SourceValueType) (expr : Expr) (declaration : Option String) :
    List PolicyError :=
  match values.expression expr with
  | some actual => checkKnown values expected actual expr.span declaration
  | none => []

mutual

def checkValue (expected : SourceValueType) : Expr → Option String → List PolicyError
  | .array span typeSpan items, declaration =>
    checkType values expected (.array span typeSpan items) declaration ++
      match expected.element with
      | some element => checkElements element items
      | none => []
  | .structLiteral span name nameSpan fields, declaration =>
    checkType values expected (.structLiteral span name nameSpan fields) declaration ++
      if expected.dimensions = [] then checkFields expected fields else []
  | expr, declaration => checkType values expected expr declaration

def checkElements (element : SourceValueType) : List Expr → List PolicyError
  | [] => []
  | value :: items => checkValue element value none ++ checkElements element items

def checkFields (expected : SourceValueType) : List (String × Expr) → List PolicyError
  | [] => []
  | (name, value) :: fields =>
    (match values.program.field expected name with
      | some ty => checkValue ty value none
      | none => []) ++ checkFields expected fields

end

def checkArguments (nameSpan : Span) (args : List Expr) : List PolicyError :=
  match values.callable nameSpan with
  | some signature =>
    (signature.params.zip args).flatMap fun param =>
      checkValue values (.declared param.1) param.2 none
  | none => []

def checkBinding (source : SourceValueType) (binding : StructBinding) : List PolicyError :=
  match values.typeAt binding.typeSpan, values.program.field source binding.fieldName with
  | some expected, some actual =>
    checkKnown values expected actual binding.span (some binding.name)
  | _, _ => []

def checkDestructure (source : Option SourceValueType) (bindings : List StructBinding) :
    List PolicyError :=
  match source with
  | some source => bindings.flatMap (checkBinding values source)
  | none => []

/-- the result type of a function -/
def callResult (nameSpan : Span) : Option SourceValueType :=
  (values.callable nameSpan).bind fun signature => signature.result.map .declared

/-- what the policy checks at one expression -/
def checkExpr : Expr → List PolicyError
  | .call _ _ nameSpan args => checkArguments values nameSpan args
  | .append _ source args =>
    match (values.expression source).bind fun ty => ty.element with
    | some expected => args.flatMap fun argument => checkValue values expected argument none
    | none => []
  | .structLiteral span name nameSpan fields =>
    match values.typeAt nameSpan with
    | some expected => checkValue values expected (.structLiteral span name nameSpan fields) none
    | none => []
  | _ => []

variable (result : Option SourceValueType)

/-- what the policy checks at one statement -/
def checkStatement : Statement → List PolicyError
  | .variableDefinition typeSpan name (some expr) =>
    match values.typeAt typeSpan with
    | some expected => checkValue values expected expr (some name)
    | none => []
  | .assign name nameSpan expr =>
    match values.namedValue nameSpan name with
    | some expected => checkValue values expected expr none
    | none => []
  | .returns exprs =>
    match result with
    | some expected => exprs.flatMap fun expr => checkValue values expected expr none
    | none => []
  | .functionCall nameSpan args => checkArguments values nameSpan args
  | .functionCallAssign bindings nameSpan args span =>
    checkArguments values nameSpan args ++
      match bindings with
      | [binding] =>
        match values.typeAt binding.typeSpan, callResult values nameSpan with
        | some expected, some actual => checkKnown values expected actual span (some binding.name)
        | _, _ => []
      | _ => []
  | .structDestructure bindings expr structNameSpan =>
    checkDestructure values (values.typeAt structNameSpan) bindings ++
      checkDestructure values (values.expression expr) bindings
  | .stateFunctionCallAssign bindings nameSpan args targetStructSpan =>
    checkArguments values nameSpan args ++
      checkDestructure values (values.typeAt targetStructSpan) bindings ++
        checkDestructure values (callResult values nameSpan) bindings
  | .tupleAssignment leftTypeSpan leftName rightTypeSpan rightName expr =>
    if expr.isSplit then
      match values.expression expr with
      | some part =>
        [(leftTypeSpan, leftName), (rightTypeSpan, rightName)].flatMap fun binding =>
          match values.typeAt binding.1 with
          | some expected => checkKnown values expected part expr.span (some binding.2)
          | none => []
      | none => []
    else []
  | _ => []

/-! ## the visitor -/

mutual

/-- an expression and then its parts, as `walk_expr_mut` visits them -/
def visitExpr : Expr → List PolicyError
  | .identifier span name => checkExpr values (.identifier span name)
  | .call span name nameSpan args =>
    checkExpr values (.call span name nameSpan args) ++ visitExprs args
  | .arrayIndex span source index =>
    checkExpr values (.arrayIndex span source index) ++ visitExpr source ++ visitExpr index
  | .fieldAccess span source field =>
    checkExpr values (.fieldAccess span source field) ++ visitExpr source
  | .structLiteral span name nameSpan fields =>
    checkExpr values (.structLiteral span name nameSpan fields) ++ visitFields fields
  | .new span nameSpan args => checkExpr values (.new span nameSpan args) ++ visitExprs args
  | .array span typeSpan items => checkExpr values (.array span typeSpan items) ++ visitExprs items
  | .append span source args =>
    checkExpr values (.append span source args) ++ visitExpr source ++ visitExprs args
  | .slice span source start stop =>
    checkExpr values (.slice span source start stop) ++ visitExpr source ++ visitExpr start ++
      visitExpr stop
  | .split span source index =>
    checkExpr values (.split span source index) ++ visitExpr source ++ visitExpr index
  | .node span kind exprs => checkExpr values (.node span kind exprs) ++ visitExprs exprs

def visitExprs : List Expr → List PolicyError
  | [] => []
  | expr :: exprs => visitExpr expr ++ visitExprs exprs

def visitFields : List (String × Expr) → List PolicyError
  | [] => []
  | (_, expr) :: fields => visitExpr expr ++ visitFields fields

end

mutual

/-- a statement and then its parts, as `walk_statement_mut` visits them -/
def visitStatement : Statement → List PolicyError
  | .variableDefinition typeSpan name none =>
    checkStatement values result (.variableDefinition typeSpan name none)
  | .variableDefinition typeSpan name (some expr) =>
    checkStatement values result (.variableDefinition typeSpan name (some expr)) ++
      visitExpr values expr
  | .assign name nameSpan expr =>
    checkStatement values result (.assign name nameSpan expr) ++ visitExpr values expr
  | .returns exprs => checkStatement values result (.returns exprs) ++ visitExprs values exprs
  | .functionCall nameSpan args =>
    checkStatement values result (.functionCall nameSpan args) ++ visitExprs values args
  | .functionCallAssign bindings nameSpan args span =>
    checkStatement values result (.functionCallAssign bindings nameSpan args span) ++
      visitExprs values args
  | .structDestructure bindings expr structNameSpan =>
    checkStatement values result (.structDestructure bindings expr structNameSpan) ++
      visitExpr values expr
  | .stateFunctionCallAssign bindings nameSpan args targetStructSpan =>
    checkStatement values result
      (.stateFunctionCallAssign bindings nameSpan args targetStructSpan) ++ visitExprs values args
  | .tupleAssignment leftTypeSpan leftName rightTypeSpan rightName expr =>
    checkStatement values result
      (.tupleAssignment leftTypeSpan leftName rightTypeSpan rightName expr) ++ visitExpr values expr
  | .block body => visitStatements body
  | .ifElse condition thenBranch elseBranch =>
    visitExpr values condition ++ visitStatements thenBranch ++ visitStatements elseBranch
  | .forLoop start stop maxIterations body =>
    visitExpr values start ++ visitExpr values stop ++ visitExpr values maxIterations ++
      visitStatements body
  | .plain _ exprs => visitExprs values exprs

def visitStatements : List Statement → List PolicyError
  | [] => []
  | statement :: statements => visitStatement statement ++ visitStatements statements

end

def visitSuccessor : Successor → List PolicyError
  | .selfRef => []
  | .constructed actor state _ => visitExpr values actor ++ visitExpr values state

mutual

/-- `visit_with` -/
def visitEntryStatement : EntryStatement → List PolicyError
  | .block statements => visitEntryStatements statements
  | .ifThen condition thenBranch => visitExpr values condition ++ visitEntryStatement thenBranch
  | .ifElse condition thenBranch elseBranch =>
    visitExpr values condition ++ visitEntryStatement thenBranch ++ visitEntryStatement elseBranch
  | .becomes routes => routes.flatMap (visitSuccessor values)
  | .sil statement => visitStatement values result statement

def visitEntryStatements : List EntryStatement → List PolicyError
  | [] => []
  | statement :: statements => visitEntryStatement statement ++ visitEntryStatements statements

end

end

/-! ## programs -/

/-- a bound site of a declaration, with its start -/
structure ReferenceSite where
  start : Nat
  isValue : Bool
  binding : Binding
deriving DecidableEq, Repr

structure FunctionBody where
  result : Option ResolvedType
  body : List Statement

inductive OwnerBody where
  | const (name : String) (ty : ResolvedType) (expr : Expr)
  | function (function : FunctionBody)
  | actor (functions : List FunctionBody) (entries : List (List EntryStatement))
  /-- a state, an actor enum or an app -/
  | other

structure Owner where
  values : SourceValues
  /-- the sites that the author wrote -/
  sites : List ReferenceSite
  body : OwnerBody

namespace Owner

def visitFunction (values : SourceValues) (function : FunctionBody) : List PolicyError :=
  visitStatements values (function.result.map .declared) function.body

/-- an actor that is named as a value -/
def bareActor (values : SourceValues) (site : ReferenceSite) : Option PolicyError :=
  match site.binding with
  | .source (.declaration actor) =>
    if site.isValue = true ∧ actor.kind = .actor then
      some ⟨values.owner, site.start, s!"in-app actor `{values.program.declarationName actor}` can " ++
        "only be referenced as a value through an actor enum group"⟩
    else none
  | _ => none

variable (owner : Owner)

def bodyErrors : List PolicyError :=
  match owner.body with
  | .const name ty expr =>
    checkValue owner.values (.declared ty) expr (some name) ++ visitExpr owner.values expr
  | .function function => visitFunction owner.values function
  | .actor functions entries =>
    functions.flatMap (visitFunction owner.values) ++
      entries.flatMap (visitEntryStatements owner.values none)
  | .other => []

/-- the errors of one declaration -/
def errors : List PolicyError := owner.sites.filterMap (bareActor owner.values) ++ owner.bodyErrors

/-- the declarations that are checked -/
def isSelected (actors : List DeclId) : Bool :=
  decide (owner.values.owner.kind = .const ∨ owner.values.owner.kind = .function ∨
    owner.values.owner ∈ actors)

end Owner

/-- the declarations of a program with their bodies, in the order of their identities -/
def validateActorValuePolicy (owners : List Owner) (actors : List DeclId) :
    Except PolicyError PUnit.{1} :=
  (owners.filter fun owner => owner.isSelected actors).forM fun owner =>
    match owner.errors with
    | [] => .ok ⟨⟩
    | error :: _ => .error error

end Argent.ActorValues
