import Argent.Model.ActorValues

/-!
# What the actor value policy keeps apart

* `HasType`      the source type of a value, form by form;
* `Transfers`      the values that the bodies of a declaration put in places that have a type;
* `Leads`      the types that meet there, those of elements and fields included;
* `validateActorValuePolicy_sound`      **no actor enum and no foreign handle is used as a handle**.
-/

set_option linter.unusedSectionVars false

namespace Argent.ActorValues
open Argent.Resolve (DeclId SymbolKind ModuleId)
open Argent.Fallible

/-! ## source types -/

/-- the value has a source type; operators, literals and casts have none -/
inductive HasType (values : SourceValues) : Expr → SourceValueType → Prop
  | identifier {span : Span} {name : String} {ty : SourceValueType}
      (h : values.namedValue span name = some ty) : HasType values (.identifier span name) ty
  | stateCall {span nameSpan : Span} {name : String} {reference : Expr} {ty : SourceValueType}
      (hcall : values.isStateCall name nameSpan = true) (h : HasType values reference ty) :
      HasType values (.call span name nameSpan [reference]) ty
  | call {span nameSpan : Span} {name : String} {args : List Expr} {signature : CallableSignature}
      {ty : ResolvedType} (hcall : values.isStateCall name nameSpan = false)
      (hcallable : values.callable nameSpan = some signature) (h : signature.result = some ty) :
      HasType values (.call span name nameSpan args) (.declared ty)
  | arrayIndex {span : Span} {source index : Expr} {ty element : SourceValueType}
      (hsource : HasType values source ty) (h : ty.element = some element) :
      HasType values (.arrayIndex span source index) element
  | observedInput {span : Span} {source : Expr} {field : String} {ty : SourceValueType}
      (h : values.observedInput source field = some ty) :
      HasType values (.fieldAccess span source field) ty
  | selfField {span : Span} {source : Expr} {field : String} {state : DeclId} {ty : SourceValueType}
      (hobserved : values.observedInput source field = none) (hself : values.isSelf source = true)
      (hstate : values.actorState = some state)
      (h : values.program.field (.ofState state) field = some ty) :
      HasType values (.fieldAccess span source field) ty
  | field {span : Span} {source : Expr} {field : String} {sourceTy ty : SourceValueType}
      (hobserved : values.observedInput source field = none) (hself : values.isSelf source = false)
      (hsource : HasType values source sourceTy)
      (h : values.program.field sourceTy field = some ty) :
      HasType values (.fieldAccess span source field) ty
  | structLiteral {span nameSpan : Span} {name : String} {fields : List (String × Expr)}
      {ty : SourceValueType} (h : values.typeAt nameSpan = some ty) :
      HasType values (.structLiteral span name nameSpan fields) ty
  | new {span nameSpan : Span} {args : List Expr} {ty : SourceValueType}
      (h : values.typeAt nameSpan = some ty) : HasType values (.new span nameSpan args) ty
  | array {span typeSpan : Span} {items : List Expr} {ty : SourceValueType}
      (h : values.typeAt typeSpan = some ty) : HasType values (.array span typeSpan items) ty
  | append {span : Span} {source : Expr} {args : List Expr} {sourceTy ty : SourceValueType}
      (hsource : HasType values source sourceTy) (h : sourceTy.appended args.length = some ty) :
      HasType values (.append span source args) ty
  | slice {span : Span} {source start stop : Expr} {sourceTy ty : SourceValueType}
      (hsource : HasType values source sourceTy) (h : sourceTy.withLast .dynamic = some ty) :
      HasType values (.slice span source start stop) ty
  | split {span : Span} {source index : Expr} {sourceTy ty : SourceValueType}
      (hsource : HasType values source sourceTy) (h : sourceTy.withLast .inferred = some ty) :
      HasType values (.split span source index) ty

section
variable {values : SourceValues} {expr : Expr} {ty ty' : SourceValueType}

theorem HasType.expression (h : HasType values expr ty) : values.expression expr = some ty := by
  induction h with
  | identifier h => exact h
  | stateCall hcall _ ih =>
    rw [SourceValues.expression, if_pos hcall]
    exact ih
  | call hcall hcallable h =>
    rw [SourceValues.expression, if_neg (Bool.eq_false_iff.mp hcall), hcallable, Option.bind_some, h]
    rfl
  | arrayIndex _ h ih =>
    rw [SourceValues.expression, ih]
    exact h
  | observedInput h => rw [SourceValues.expression, h]
  | selfField hobserved hself hstate h =>
    rw [SourceValues.expression, hobserved]
    dsimp only
    rw [if_pos hself, hstate]
    exact h
  | field hobserved hself _ h ih =>
    rw [SourceValues.expression, hobserved]
    dsimp only
    rw [if_neg (Bool.eq_false_iff.mp hself), ih]
    exact h
  | structLiteral h => exact h
  | new h => exact h
  | array h => exact h
  | append _ h ih =>
    rw [SourceValues.expression, ih]
    exact h
  | slice _ h ih =>
    rw [SourceValues.expression, ih]
    exact h
  | split _ h ih =>
    rw [SourceValues.expression, ih]
    exact h

mutual

theorem hasType_of_expression : ∀ (expr : Expr) {ty : SourceValueType},
    values.expression expr = some ty → HasType values expr ty
  | .identifier span name, ty, h => .identifier h
  | .call span name nameSpan args, ty, h => by
    rw [SourceValues.expression] at h
    cases hcall : values.isStateCall name nameSpan with
    | true =>
      rw [hcall, if_pos rfl] at h
      obtain ⟨reference, rfl, hreference⟩ := hasType_of_onlyExpression args h
      exact .stateCall hcall hreference
    | false =>
      rw [hcall, if_neg Bool.false_ne_true] at h
      obtain ⟨signature, hcallable, hdeclared⟩ := Option.bind_eq_some_iff.mp h
      obtain ⟨result, hresult, rfl⟩ := Option.map_eq_some_iff.mp hdeclared
      exact .call hcall hcallable hresult
  | .arrayIndex span source index, ty, h => by
    obtain ⟨sourceTy, hsource, h⟩ := Option.bind_eq_some_iff.mp h
    exact .arrayIndex (hasType_of_expression source hsource) h
  | .fieldAccess span source field, ty, h => by
    rw [SourceValues.expression] at h
    cases hobserved : values.observedInput source field with
    | some observed =>
      rw [hobserved] at h
      cases h
      exact .observedInput hobserved
    | none =>
      rw [hobserved] at h
      dsimp only at h
      cases hself : values.isSelf source with
      | true =>
        rw [hself, if_pos rfl] at h
        obtain ⟨state, hstate, h⟩ := Option.bind_eq_some_iff.mp h
        exact .selfField hobserved hself hstate h
      | false =>
        rw [hself, if_neg Bool.false_ne_true] at h
        obtain ⟨sourceTy, hsource, h⟩ := Option.bind_eq_some_iff.mp h
        exact .field hobserved hself (hasType_of_expression source hsource) h
  | .structLiteral span name nameSpan fields, ty, h => .structLiteral h
  | .new span nameSpan args, ty, h => .new h
  | .array span typeSpan items, ty, h => .array h
  | .append span source args, ty, h => by
    obtain ⟨sourceTy, hsource, h⟩ := Option.bind_eq_some_iff.mp h
    exact .append (hasType_of_expression source hsource) h
  | .slice span source start stop, ty, h => by
    obtain ⟨sourceTy, hsource, h⟩ := Option.bind_eq_some_iff.mp h
    exact .slice (hasType_of_expression source hsource) h
  | .split span source index, ty, h => by
    obtain ⟨sourceTy, hsource, h⟩ := Option.bind_eq_some_iff.mp h
    exact .split (hasType_of_expression source hsource) h
  | .node span kind exprs, ty, h => by cases h

theorem hasType_of_onlyExpression : ∀ (args : List Expr) {ty : SourceValueType},
    values.onlyExpression args = some ty →
      ∃ reference, args = [reference] ∧ HasType values reference ty
  | [], ty, h => by cases h
  | [reference], ty, h => ⟨reference, rfl, hasType_of_expression reference h⟩
  | _ :: _ :: _, ty, h => by cases h

end

theorem HasType.unique (h : HasType values expr ty) (h' : HasType values expr ty') : ty = ty' := by
  have heq := h.expression.symm.trans h'.expression
  exact Option.some.inj heq

end

/-! ## places -/

/-- a value in a place that has a type, or a place that takes a value of a known type -/
inductive Transfer where
  | value (expected : SourceValueType) (expr : Expr)
  | known (expected actual : SourceValueType)

/-- arguments, appended values, and the fields of a literal that names its type -/
inductive ExprTransfer (values : SourceValues) : Expr → Transfer → Prop
  | argument {span nameSpan : Span} {name : String} {args : List Expr} {arg : Expr}
      {signature : CallableSignature} {param : ResolvedType}
      (hcallable : values.callable nameSpan = some signature)
      (h : (param, arg) ∈ signature.params.zip args) :
      ExprTransfer values (.call span name nameSpan args) (.value (.declared param) arg)
  | append {span : Span} {source arg : Expr} {args : List Expr} {ty expected : SourceValueType}
      (hsource : HasType values source ty) (helement : ty.element = some expected) (h : arg ∈ args) :
      ExprTransfer values (.append span source args) (.value expected arg)
  | structLiteral {span nameSpan : Span} {name : String} {fields : List (String × Expr)}
      {expected : SourceValueType} (h : values.typeAt nameSpan = some expected) :
      ExprTransfer values (.structLiteral span name nameSpan fields)
        (.value expected (.structLiteral span name nameSpan fields))

/-- a binding takes a field of the value that is destructured -/
def Destructures (values : SourceValues) (source : SourceValueType) (bindings : List StructBinding)
    (transfer : Transfer) : Prop :=
  ∃ binding ∈ bindings, ∃ expected actual, values.typeAt binding.typeSpan = some expected ∧
    values.program.field source binding.fieldName = some actual ∧ transfer = .known expected actual

/-- definitions, assignments, returned values, arguments, destructuring and splits -/
inductive StatementTransfer (values : SourceValues) (result : Option SourceValueType) :
    Statement → Transfer → Prop
  | definition {typeSpan : Span} {name : String} {expr : Expr} {expected : SourceValueType}
      (h : values.typeAt typeSpan = some expected) :
      StatementTransfer values result (.variableDefinition typeSpan name (some expr))
        (.value expected expr)
  | assignment {nameSpan : Span} {name : String} {expr : Expr} {expected : SourceValueType}
      (h : values.namedValue nameSpan name = some expected) :
      StatementTransfer values result (.assign name nameSpan expr) (.value expected expr)
  | returned {exprs : List Expr} {expr : Expr} {expected : SourceValueType}
      (hresult : result = some expected) (h : expr ∈ exprs) :
      StatementTransfer values result (.returns exprs) (.value expected expr)
  | argument {nameSpan : Span} {args : List Expr} {span : Span} {name : String} {transfer : Transfer}
      (h : ExprTransfer values (.call span name nameSpan args) transfer) :
      StatementTransfer values result (.functionCall nameSpan args) transfer
  | assignedArgument {bindings : List ParamBinding} {nameSpan span callSpan : Span}
      {args : List Expr} {name : String} {transfer : Transfer}
      (h : ExprTransfer values (.call callSpan name nameSpan args) transfer) :
      StatementTransfer values result (.functionCallAssign bindings nameSpan args span) transfer
  | assigned {binding : ParamBinding} {nameSpan span : Span} {args : List Expr}
      {expected actual : SourceValueType} (htype : values.typeAt binding.typeSpan = some expected)
      (h : callResult values nameSpan = some actual) :
      StatementTransfer values result (.functionCallAssign [binding] nameSpan args span)
        (.known expected actual)
  | destructured {bindings : List StructBinding} {expr : Expr} {structNameSpan : Span}
      {source : SourceValueType} {transfer : Transfer}
      (hsource : values.typeAt structNameSpan = some source ∨ HasType values expr source)
      (h : Destructures values source bindings transfer) :
      StatementTransfer values result (.structDestructure bindings expr structNameSpan) transfer
  | destructuredArgument {bindings : List StructBinding} {nameSpan targetStructSpan span : Span}
      {args : List Expr} {name : String} {transfer : Transfer}
      (h : ExprTransfer values (.call span name nameSpan args) transfer) :
      StatementTransfer values result
        (.stateFunctionCallAssign bindings nameSpan args targetStructSpan) transfer
  | destructuredCall {bindings : List StructBinding} {nameSpan targetStructSpan : Span}
      {args : List Expr} {source : SourceValueType} {transfer : Transfer}
      (hsource : values.typeAt targetStructSpan = some source ∨
        callResult values nameSpan = some source)
      (h : Destructures values source bindings transfer) :
      StatementTransfer values result
        (.stateFunctionCallAssign bindings nameSpan args targetStructSpan) transfer
  | splitPart {leftTypeSpan rightTypeSpan typeSpan : Span} {leftName rightName : String}
      {span : Span} {source index : Expr} {expected part : SourceValueType}
      (htype : HasType values (.split span source index) part)
      (hside : typeSpan = leftTypeSpan ∨ typeSpan = rightTypeSpan)
      (h : values.typeAt typeSpan = some expected) :
      StatementTransfer values result
        (.tupleAssignment leftTypeSpan leftName rightTypeSpan rightName (.split span source index))
        (.known expected part)

/-! ## the parts of bodies -/

mutual

/-- an expression and everything in it -/
def Expr.nodes : Expr → List Expr
  | .identifier span name => [.identifier span name]
  | .call span name nameSpan args => .call span name nameSpan args :: nodesAll args
  | .arrayIndex span source index =>
    .arrayIndex span source index :: (source.nodes ++ index.nodes)
  | .fieldAccess span source field => .fieldAccess span source field :: source.nodes
  | .structLiteral span name nameSpan fields =>
    .structLiteral span name nameSpan fields :: nodesFields fields
  | .new span nameSpan args => .new span nameSpan args :: nodesAll args
  | .array span typeSpan items => .array span typeSpan items :: nodesAll items
  | .append span source args => .append span source args :: (source.nodes ++ nodesAll args)
  | .slice span source start stop =>
    .slice span source start stop :: (source.nodes ++ start.nodes ++ stop.nodes)
  | .split span source index => .split span source index :: (source.nodes ++ index.nodes)
  | .node span kind exprs => .node span kind exprs :: nodesAll exprs

def nodesAll : List Expr → List Expr
  | [] => []
  | expr :: exprs => expr.nodes ++ nodesAll exprs

def nodesFields : List (String × Expr) → List Expr
  | [] => []
  | (_, expr) :: fields => expr.nodes ++ nodesFields fields

end

mutual

/-- a statement and everything in it -/
def Statement.all : Statement → List Statement
  | .block body => .block body :: allStatements body
  | .ifElse condition thenBranch elseBranch =>
    .ifElse condition thenBranch elseBranch ::
      (allStatements thenBranch ++ allStatements elseBranch)
  | .forLoop start stop maxIterations body =>
    .forLoop start stop maxIterations body :: allStatements body
  | statement => [statement]

def allStatements : List Statement → List Statement
  | [] => []
  | statement :: statements => statement.all ++ allStatements statements

end

/-- the expressions of one statement -/
def Statement.exprs : Statement → List Expr
  | .variableDefinition _ _ expr => expr.toList
  | .assign _ _ expr | .structDestructure _ expr _ | .tupleAssignment _ _ _ _ expr => [expr]
  | .returns exprs | .functionCall _ exprs | .functionCallAssign _ _ exprs _
  | .stateFunctionCallAssign _ _ exprs _ | .plain _ exprs => exprs
  | .block _ => []
  | .ifElse condition _ _ => [condition]
  | .forLoop start stop maxIterations _ => [start, stop, maxIterations]

mutual

def EntryStatement.statements : EntryStatement → List Statement
  | .block statements => entryStatements statements
  | .ifThen _ thenBranch => thenBranch.statements
  | .ifElse _ thenBranch elseBranch => thenBranch.statements ++ elseBranch.statements
  | .becomes _ => []
  | .sil statement => statement.all

def entryStatements : List EntryStatement → List Statement
  | [] => []
  | statement :: statements => statement.statements ++ entryStatements statements

end

mutual

def EntryStatement.successors : EntryStatement → List Successor
  | .block statements => entrySuccessors statements
  | .ifThen _ thenBranch => thenBranch.successors
  | .ifElse _ thenBranch elseBranch => thenBranch.successors ++ elseBranch.successors
  | .becomes routes => routes
  | .sil _ => []

def entrySuccessors : List EntryStatement → List Successor
  | [] => []
  | statement :: statements => statement.successors ++ entrySuccessors statements

end

mutual

def EntryStatement.conditions : EntryStatement → List Expr
  | .block statements => entryConditions statements
  | .ifThen condition thenBranch => condition :: thenBranch.conditions
  | .ifElse condition thenBranch elseBranch =>
    condition :: (thenBranch.conditions ++ elseBranch.conditions)
  | .becomes _ | .sil _ => []

def entryConditions : List EntryStatement → List Expr
  | [] => []
  | statement :: statements => statement.conditions ++ entryConditions statements

end

def Successor.exprs : Successor → List Expr
  | .selfRef => []
  | .constructed actor state _ => [actor, state]

namespace Owner
variable (owner : Owner)

/-- the statements of a declaration, with the result type of their function -/
def statements : List (Option SourceValueType × Statement) :=
  let ofFunction := fun (function : FunctionBody) =>
    (allStatements function.body).map fun statement => (function.result.map .declared, statement)
  match owner.body with
  | .const _ _ _ | .other => []
  | .function function => ofFunction function
  | .actor functions entries =>
    functions.flatMap ofFunction ++
      (entries.flatMap entryStatements).map fun statement => (none, statement)

/-- the routes of `become` in the entries of an actor -/
def successors : List Successor :=
  match owner.body with
  | .actor _ entries => entries.flatMap entrySuccessors
  | .const _ _ _ | .function _ | .other => []

/-- the conditions of the entries, and the value of a constant -/
def otherExprs : List Expr :=
  match owner.body with
  | .const _ _ expr => [expr]
  | .actor _ entries => entries.flatMap entryConditions
  | .function _ | .other => []

/-- the expressions of a declaration -/
def exprs : List Expr :=
  owner.otherExprs ++ owner.successors.flatMap Successor.exprs ++
    owner.statements.flatMap fun statement => statement.2.exprs

/-- the values that a declaration puts in places that have a type -/
inductive Transfers (owner : Owner) : Transfer → Prop
  | const {name : String} {ty : ResolvedType} {expr : Expr} (h : owner.body = .const name ty expr) :
      Transfers owner (.value (.declared ty) expr)
  | statement {result : Option SourceValueType} {statement : Statement} {transfer : Transfer}
      (hmem : (result, statement) ∈ owner.statements)
      (h : StatementTransfer owner.values result statement transfer) : Transfers owner transfer
  | expr {root node : Expr} {transfer : Transfer} (hroot : root ∈ owner.exprs)
      (hnode : node ∈ root.nodes) (h : ExprTransfer owner.values node transfer) :
      Transfers owner transfer

end Owner

/-! ## what meets in a place -/

/-- The type of a place and of what comes to stand there: in the place itself, in its elements and in
its fields.  A value of a state has all its fields with it; `agree` says which states may meet. -/
inductive Leads (values : SourceValues) (agree : DeclId → DeclId → Prop) :
    Transfer → SourceValueType → SourceValueType → Prop
  | known {expected actual : SourceValueType} :
      Leads values agree (.known expected actual) expected actual
  | value {expected actual : SourceValueType} {expr : Expr} (h : HasType values expr actual) :
      Leads values agree (.value expected expr) expected actual
  | item {expected element place actual : SourceValueType} {span typeSpan : Span}
      {items : List Expr} {item : Expr} (helement : expected.element = some element)
      (hmem : item ∈ items) (h : Leads values agree (.value element item) place actual) :
      Leads values agree (.value expected (.array span typeSpan items)) place actual
  | field {expected ty place actual : SourceValueType} {span nameSpan : Span} {name field : String}
      {fields : List (String × Expr)} {expr : Expr} (hdims : expected.dimensions = [])
      (hmem : (field, expr) ∈ fields) (hfield : values.program.field expected field = some ty)
      (h : Leads values agree (.value ty expr) place actual) :
      Leads values agree (.value expected (.structLiteral span name nameSpan fields)) place actual
  | element {transfer : Transfer} {place actual place' actual' : SourceValueType}
      (h : Leads values agree transfer place actual) (hplace : place.element = some place')
      (hactual : actual.element = some actual') : Leads values agree transfer place' actual'
  | whole {transfer : Transfer} {place actual place' actual' : SourceValueType}
      {state state' : DeclId} {field : String} (h : Leads values agree transfer place actual)
      (hplace : place.base = .state state) (hactual : actual.base = .state state')
      (hagree : agree state state') (hfield : values.program.field place field = some place')
      (hfield' : values.program.field actual field = some actual') :
      Leads values agree transfer place' actual'

/-- an actor enum, or the handle of an actor of another state, stands for the handle of an actor -/
def Leaks (place actual : SourceValueType) : Prop :=
  ∃ state, place.base = .actorHandle state ∧
    ((∃ enumeration, actual.base = .actorEnum enumeration) ∨
      ∃ other, actual.base = .actorHandle other ∧ other ≠ state ∧ actual.literalBase ≠ some state)

/-! ## one check -/

section
variable {values : SourceValues} {expected actual : SourceValueType} {expr : Expr}
  {declaration : Option String}

theorem reject_ne_nil {span : Span} {message : String} : reject values span message ≠ [] :=
  List.cons_ne_nil _ _

/-- **what passes the check of two types does not leak** -/
theorem not_leaks_of_checkKnown {span : Span}
    (h : checkKnown values expected actual span declaration = []) : ¬ Leaks expected actual := by
  rintro ⟨state, hplace, hactual⟩
  unfold checkKnown at h
  obtain ⟨enumeration, hactual⟩ | ⟨other, hactual, hne, hliteral⟩ := hactual
  · have henum : isEnumAsHandle expected actual = true := by
      unfold isEnumAsHandle
      rw [hplace, hactual]
    rw [henum, if_pos rfl] at h
    exact reject_ne_nil h
  · have henum : isEnumAsHandle expected actual = false := by
      unfold isEnumAsHandle
      rw [hplace, hactual]
    have hincompatible : isIncompatible expected actual = true := by
      unfold isIncompatible
      rw [hplace, hactual]
      dsimp only
      rw [decide_eq_true ⟨hne.symm, hliteral⟩, Bool.true_or]
    rw [henum, if_neg Bool.false_ne_true, hincompatible, if_pos rfl] at h
    exact reject_ne_nil h

theorem checkType_of_checkValue (h : checkValue values expected expr declaration = []) :
    checkType values expected expr declaration = [] := by
  cases expr with
  | array span typeSpan items =>
    rw [checkValue, List.append_eq_nil_iff] at h
    exact h.1
  | structLiteral span name nameSpan fields =>
    rw [checkValue, List.append_eq_nil_iff] at h
    exact h.1
  | identifier | call | arrayIndex | fieldAccess | new | append | slice | split | node =>
    rw [checkValue] at h
    · exact h
    all_goals
      intros
      contradiction

theorem checkValue_of_mem {items : List Expr} {item : Expr} {element : SourceValueType}
    (h : checkElements values element items = []) (hmem : item ∈ items) :
    checkValue values element item none = [] := by
  induction items with
  | nil => cases hmem
  | cons other items ih =>
    rw [checkElements, List.append_eq_nil_iff] at h
    rcases List.mem_cons.mp hmem with rfl | hmem
    · exact h.1
    · exact ih h.2 hmem

theorem checkValue_of_field {fields : List (String × Expr)} {field : String} {ty : SourceValueType}
    (h : checkFields values expected fields = []) (hmem : (field, expr) ∈ fields)
    (hfield : values.program.field expected field = some ty) :
    checkValue values ty expr none = [] := by
  induction fields with
  | nil => cases hmem
  | cons other fields ih =>
    obtain ⟨name, value⟩ := other
    rw [checkFields, List.append_eq_nil_iff] at h
    rcases List.mem_cons.mp hmem with heq | hmem
    · obtain ⟨rfl, rfl⟩ := Prod.mk.inj heq
      rw [hfield] at h
      exact h.1
    · exact ih h.2 hmem

end

/-! ## transfers -/

section
variable {values : SourceValues} {place actual place' actual' : SourceValueType}

/-- the policy has checked the transfer -/
def Transfer.Passes (values : SourceValues) : Transfer → Prop
  | .value expected expr => ∃ declaration, checkValue values expected expr declaration = []
  | .known expected actual => ∃ span declaration, checkKnown values expected actual span declaration = []

theorem not_leaks_element (h : ¬ Leaks place actual) (hplace : place.element = some place')
    (hactual : actual.element = some actual') : ¬ Leaks place' actual' := by
  have hsame : ∀ {ty element : SourceValueType}, ty.element = some element →
      element.base = ty.base ∧ element.literalBase = ty.literalBase := by
    intro ty element helement
    unfold SourceValueType.element at helement
    split_ifs at helement
    cases helement
    exact ⟨rfl, rfl⟩
  unfold Leaks
  rw [(hsame hplace).1, (hsame hactual).1, (hsame hactual).2]
  exact h

theorem not_leaks_of_base (h : place.base = actual.base) : ¬ Leaks place actual := by
  rintro ⟨state, hplace, ⟨enumeration, hactual⟩ | ⟨other, hactual, hne, -⟩⟩
  · rw [← h, hplace] at hactual
    cases hactual
  · rw [← h, hplace] at hactual
    exact hne (ResolvedTypeBase.actorHandle.inj hactual).symm

theorem field_eq_of_state {state : DeclId} {field : String} (hplace : place.base = .state state)
    (hactual : actual.base = .state state) (hfield : values.program.field place field = some place')
    (hfield' : values.program.field actual field = some actual') : place' = actual' := by
  have hof : ∀ {ty fieldTy : SourceValueType}, ty.base = .state state →
      values.program.field ty field = some fieldTy →
        values.program.stateField state field = some fieldTy := by
    intro ty fieldTy hbase h
    unfold Program.field at h
    split_ifs at h
    rw [hbase] at h
    exact h
  have heq := (hof hplace hfield).symm.trans (hof hactual hfield')
  exact Option.some.inj heq

/-- **nothing leaks in a place that the policy has checked** -/
theorem Leads.not_leaks {transfer : Transfer} (h : Leads values Eq transfer place actual)
    (hpasses : transfer.Passes values) : ¬ Leaks place actual := by
  induction h with
  | known =>
    obtain ⟨span, declaration, hcheck⟩ := hpasses
    exact not_leaks_of_checkKnown hcheck
  | value htype =>
    obtain ⟨declaration, hcheck⟩ := hpasses
    have hchecked := checkType_of_checkValue hcheck
    unfold checkType at hchecked
    rw [htype.expression] at hchecked
    exact not_leaks_of_checkKnown hchecked
  | item helement hmem _ ih =>
    obtain ⟨declaration, hcheck⟩ := hpasses
    rw [checkValue, List.append_eq_nil_iff, helement] at hcheck
    exact ih ⟨none, checkValue_of_mem hcheck.2 hmem⟩
  | field hdims hmem hfield _ ih =>
    obtain ⟨declaration, hcheck⟩ := hpasses
    rw [checkValue, List.append_eq_nil_iff, if_pos hdims] at hcheck
    exact ih ⟨none, checkValue_of_field hcheck.2 hmem hfield⟩
  | element _ hplace hactual ih => exact not_leaks_element (ih hpasses) hplace hactual
  | whole _ hplace hactual hagree hfield hfield' _ =>
    apply not_leaks_of_base
    rw [← hagree] at hactual
    rw [field_eq_of_state hplace hactual hfield hfield']

/-- the fields of a value depend on its state only -/
theorem field_congr {ty ty' : SourceValueType} (hbase : ty.base = ty'.base)
    (hdims : ty.dimensions = ty'.dimensions) (field : String) :
    values.program.field ty field = values.program.field ty' field := by
  unfold Program.field
  rw [hbase, hdims]

/-- a value in a place of its own type, when a literal among them is checked -/
theorem Leads.not_leaks_of_type {expr : Expr} {expected ty : SourceValueType}
    (htype : HasType values expr ty) (hbase : expected.base = ty.base)
    (hdims : expected.dimensions = ty.dimensions) (harray : expr.isArray = false)
    (hpasses : expr.isStructLiteral = true → (Transfer.value ty expr).Passes values)
    (h : Leads values Eq (.value expected expr) place actual) : ¬ Leaks place actual := by
  generalize htransfer : Transfer.value expected expr = transfer at h
  induction h with
  | known => cases htransfer
  | value htype' =>
    cases htransfer
    rw [← htype.unique htype']
    exact not_leaks_of_base hbase
  | item _ _ _ _ =>
    cases htransfer
    cases harray
  | field hdims' hmem hfield hleads _ =>
    cases htransfer
    obtain ⟨declaration, hcheck⟩ := hpasses rfl
    rw [checkValue, List.append_eq_nil_iff, if_pos (hdims.symm.trans hdims')] at hcheck
    rw [field_congr hbase hdims] at hfield
    exact hleads.not_leaks ⟨none, checkValue_of_field hcheck.2 hmem hfield⟩
  | element _ hplace hactual ih => exact not_leaks_element (ih htransfer) hplace hactual
  | whole _ hplace hactual hagree hfield hfield' _ =>
    apply not_leaks_of_base
    rw [← hagree] at hactual
    rw [field_eq_of_state hplace hactual hfield hfield']

end

/-! ## the visitor -/

section
variable {values : SourceValues} {result : Option SourceValueType}

mutual

theorem visitExpr_eq : ∀ expr : Expr,
    visitExpr values expr = expr.nodes.flatMap (checkExpr values)
  | .identifier span name => by
    rw [visitExpr, Expr.nodes, List.flatMap_singleton]
  | .call span name nameSpan args => by
    rw [visitExpr, Expr.nodes, List.flatMap_cons, visitExprs_eq args]
  | .arrayIndex span source index => by
    rw [visitExpr, Expr.nodes, List.flatMap_cons, List.flatMap_append, visitExpr_eq source,
      visitExpr_eq index, List.append_assoc]
  | .fieldAccess span source field => by
    rw [visitExpr, Expr.nodes, List.flatMap_cons, visitExpr_eq source]
  | .structLiteral span name nameSpan fields => by
    rw [visitExpr, Expr.nodes, List.flatMap_cons, visitFields_eq fields]
  | .new span nameSpan args => by
    rw [visitExpr, Expr.nodes, List.flatMap_cons, visitExprs_eq args]
  | .array span typeSpan items => by
    rw [visitExpr, Expr.nodes, List.flatMap_cons, visitExprs_eq items]
  | .append span source args => by
    rw [visitExpr, Expr.nodes, List.flatMap_cons, List.flatMap_append, visitExpr_eq source,
      visitExprs_eq args, List.append_assoc]
  | .slice span source start stop => by
    rw [visitExpr, Expr.nodes, List.flatMap_cons, List.flatMap_append, List.flatMap_append,
      visitExpr_eq source, visitExpr_eq start, visitExpr_eq stop, List.append_assoc,
      List.append_assoc, List.append_assoc]
  | .split span source index => by
    rw [visitExpr, Expr.nodes, List.flatMap_cons, List.flatMap_append, visitExpr_eq source,
      visitExpr_eq index, List.append_assoc]
  | .node span kind exprs => by
    rw [visitExpr, Expr.nodes, List.flatMap_cons, visitExprs_eq exprs]

theorem visitExprs_eq : ∀ exprs : List Expr,
    visitExprs values exprs = (nodesAll exprs).flatMap (checkExpr values)
  | [] => rfl
  | expr :: exprs => by
    rw [visitExprs, nodesAll, List.flatMap_append, visitExpr_eq expr, visitExprs_eq exprs]

theorem visitFields_eq : ∀ fields : List (String × Expr),
    visitFields values fields = (nodesFields fields).flatMap (checkExpr values)
  | [] => rfl
  | (name, expr) :: fields => by
    rw [visitFields, nodesFields, List.flatMap_append, visitExpr_eq expr, visitFields_eq fields]

end

theorem checkExpr_of_visitExpr {root node : Expr} (h : visitExpr values root = [])
    (hnode : node ∈ root.nodes) : checkExpr values node = [] := by
  rw [visitExpr_eq] at h
  exact List.flatMap_eq_nil_iff.mp h node hnode

theorem visitExpr_of_mem {exprs : List Expr} {expr : Expr} (h : visitExprs values exprs = [])
    (hmem : expr ∈ exprs) : visitExpr values expr = [] := by
  induction exprs with
  | nil => cases hmem
  | cons other exprs ih =>
    rw [visitExprs, List.append_eq_nil_iff] at h
    rcases List.mem_cons.mp hmem with rfl | hmem
    · exact h.1
    · exact ih h.2 hmem

/-- a statement is checked with its expressions -/
def Statement.Visited (values : SourceValues) (result : Option SourceValueType)
    (statement : Statement) : Prop :=
  checkStatement values result statement = [] ∧
    ∀ expr ∈ statement.exprs, visitExpr values expr = []

theorem Statement.visited_of_exprs {statement : Statement}
    (h : checkStatement values result statement ++ visitExprs values statement.exprs = []) :
    statement.Visited values result := by
  rw [List.append_eq_nil_iff] at h
  exact ⟨h.1, fun expr hmem => visitExpr_of_mem h.2 hmem⟩

theorem visitExprs_singleton (expr : Expr) : visitExprs values [expr] = visitExpr values expr := by
  rw [visitExprs, visitExprs, List.append_nil]

mutual

/-- every part of a statement is checked -/
theorem visited_of_visitStatement : ∀ (statement : Statement),
    visitStatement values result statement = [] →
      ∀ part ∈ statement.all, part.Visited values result
  | .variableDefinition typeSpan name none, h, part, hmem => by
    rw [List.mem_singleton.mp hmem]
    exact Statement.visited_of_exprs ((List.append_nil _).trans h)
  | .variableDefinition typeSpan name (some expr), h, part, hmem => by
    rw [List.mem_singleton.mp hmem]
    rw [visitStatement, ← visitExprs_singleton] at h
    exact Statement.visited_of_exprs h
  | .assign name nameSpan expr, h, part, hmem => by
    rw [List.mem_singleton.mp hmem]
    rw [visitStatement, ← visitExprs_singleton] at h
    exact Statement.visited_of_exprs h
  | .returns exprs, h, part, hmem => by
    rw [List.mem_singleton.mp hmem]
    exact Statement.visited_of_exprs h
  | .functionCall nameSpan args, h, part, hmem => by
    rw [List.mem_singleton.mp hmem]
    exact Statement.visited_of_exprs h
  | .functionCallAssign bindings nameSpan args span, h, part, hmem => by
    rw [List.mem_singleton.mp hmem]
    exact Statement.visited_of_exprs h
  | .structDestructure bindings expr structNameSpan, h, part, hmem => by
    rw [List.mem_singleton.mp hmem]
    rw [visitStatement, ← visitExprs_singleton] at h
    exact Statement.visited_of_exprs h
  | .stateFunctionCallAssign bindings nameSpan args targetStructSpan, h, part, hmem => by
    rw [List.mem_singleton.mp hmem]
    exact Statement.visited_of_exprs h
  | .tupleAssignment leftTypeSpan leftName rightTypeSpan rightName expr, h, part, hmem => by
    rw [List.mem_singleton.mp hmem]
    rw [visitStatement, ← visitExprs_singleton] at h
    exact Statement.visited_of_exprs h
  | .block body, h, part, hmem => by
    rcases List.mem_cons.mp hmem with rfl | hmem
    · exact ⟨rfl, fun expr hexpr => absurd hexpr List.not_mem_nil⟩
    · exact visited_of_visitStatements body h part hmem
  | .ifElse condition thenBranch elseBranch, h, part, hmem => by
    rw [visitStatement, List.append_eq_nil_iff, List.append_eq_nil_iff] at h
    obtain ⟨⟨hcondition, hthen⟩, helse⟩ := h
    rcases List.mem_cons.mp hmem with rfl | hmem
    · refine ⟨rfl, fun expr hexpr => ?_⟩
      rw [List.mem_singleton.mp hexpr]
      exact hcondition
    · rcases List.mem_append.mp hmem with hmem | hmem
      · exact visited_of_visitStatements thenBranch hthen part hmem
      · exact visited_of_visitStatements elseBranch helse part hmem
  | .forLoop start stop maxIterations body, h, part, hmem => by
    rw [visitStatement, List.append_eq_nil_iff] at h
    rcases List.mem_cons.mp hmem with rfl | hmem
    · refine ⟨rfl, fun expr hexpr => ?_⟩
      have hexprs : visitExprs values [start, stop, maxIterations] = [] := by
        rw [visitExprs, visitExprs, visitExprs_singleton, ← List.append_assoc]
        exact h.1
      exact visitExpr_of_mem hexprs hexpr
    · exact visited_of_visitStatements body h.2 part hmem
  | .plain kind exprs, h, part, hmem => by
    rw [List.mem_singleton.mp hmem]
    exact Statement.visited_of_exprs h

theorem visited_of_visitStatements : ∀ (statements : List Statement),
    visitStatements values result statements = [] →
      ∀ part ∈ allStatements statements, part.Visited values result
  | [], _, part, hmem => absurd hmem List.not_mem_nil
  | statement :: statements, h, part, hmem => by
    rw [visitStatements, List.append_eq_nil_iff] at h
    rcases List.mem_append.mp hmem with hmem | hmem
    · exact visited_of_visitStatement statement h.1 part hmem
    · exact visited_of_visitStatements statements h.2 part hmem

end

/-- an entry is checked: its statements, its routes and its conditions -/
structure EntryVisited (values : SourceValues) (result : Option SourceValueType)
    (statements : List Statement) (successors : List Successor) (conditions : List Expr) : Prop where
  statements : ∀ part ∈ statements, part.Visited values result
  successors : ∀ successor ∈ successors, ∀ expr ∈ successor.exprs, visitExpr values expr = []
  conditions : ∀ expr ∈ conditions, visitExpr values expr = []

theorem EntryVisited.append {statements statements' : List Statement}
    {successors successors' : List Successor} {conditions conditions' : List Expr}
    (h : EntryVisited values result statements successors conditions)
    (h' : EntryVisited values result statements' successors' conditions') :
    EntryVisited values result (statements ++ statements') (successors ++ successors')
      (conditions ++ conditions') where
  statements part hmem :=
    (List.mem_append.mp hmem).elim (h.statements part) (h'.statements part)
  successors successor hmem :=
    (List.mem_append.mp hmem).elim (h.successors successor) (h'.successors successor)
  conditions expr hmem := (List.mem_append.mp hmem).elim (h.conditions expr) (h'.conditions expr)

theorem EntryVisited.condition {condition : Expr} {statements : List Statement}
    {successors : List Successor} {conditions : List Expr}
    (hcondition : visitExpr values condition = [])
    (h : EntryVisited values result statements successors conditions) :
    EntryVisited values result statements successors (condition :: conditions) where
  statements := h.statements
  successors := h.successors
  conditions expr hmem := by
    rcases List.mem_cons.mp hmem with rfl | hmem
    · exact hcondition
    · exact h.conditions expr hmem

theorem EntryVisited.nil : EntryVisited values result [] [] [] :=
  ⟨fun _ hmem => absurd hmem List.not_mem_nil, fun _ hmem => absurd hmem List.not_mem_nil,
    fun _ hmem => absurd hmem List.not_mem_nil⟩

theorem visitExpr_of_visitSuccessor {successor : Successor}
    (h : visitSuccessor values successor = []) :
    ∀ expr ∈ successor.exprs, visitExpr values expr = [] := by
  cases successor with
  | selfRef => exact fun expr hmem => absurd hmem List.not_mem_nil
  | constructed actor state many =>
    intro expr hmem
    have hexprs : visitExprs values [actor, state] = [] := by
      rw [visitExprs, visitExprs_singleton]
      exact h
    exact visitExpr_of_mem hexprs hmem

mutual

theorem entryVisited_of_visit : ∀ (statement : EntryStatement),
    visitEntryStatement values result statement = [] → EntryVisited values result
      statement.statements statement.successors statement.conditions
  | .block statements, h => entryVisited_of_visitAll statements h
  | .ifThen condition thenBranch, h => by
    rw [visitEntryStatement, List.append_eq_nil_iff] at h
    exact (entryVisited_of_visit thenBranch h.2).condition h.1
  | .ifElse condition thenBranch elseBranch, h => by
    rw [visitEntryStatement, List.append_eq_nil_iff, List.append_eq_nil_iff] at h
    obtain ⟨⟨hcondition, hthen⟩, helse⟩ := h
    have hbranches := (entryVisited_of_visit thenBranch hthen).append
      (entryVisited_of_visit elseBranch helse)
    exact hbranches.condition hcondition
  | .becomes routes, h => by
    refine ⟨fun part hmem => absurd hmem List.not_mem_nil, fun successor hmem => ?_,
      fun expr hmem => absurd hmem List.not_mem_nil⟩
    have hroute := List.flatMap_eq_nil_iff.mp h successor hmem
    exact visitExpr_of_visitSuccessor hroute
  | .sil statement, h =>
    ⟨visited_of_visitStatement statement h, fun _ hmem => absurd hmem List.not_mem_nil,
      fun _ hmem => absurd hmem List.not_mem_nil⟩

theorem entryVisited_of_visitAll : ∀ (statements : List EntryStatement),
    visitEntryStatements values result statements = [] → EntryVisited values result
      (entryStatements statements) (entrySuccessors statements) (entryConditions statements)
  | [], _ => EntryVisited.nil
  | statement :: statements, h => by
    rw [visitEntryStatements, List.append_eq_nil_iff] at h
    exact (entryVisited_of_visit statement h.1).append (entryVisited_of_visitAll statements h.2)

end

end

/-! ## what is checked -/

section
variable {values : SourceValues} {result : Option SourceValueType} {transfer : Transfer}

theorem passes_of_checkArguments {nameSpan : Span} {args : List Expr} {arg : Expr}
    {signature : CallableSignature} {param : ResolvedType}
    (h : checkArguments values nameSpan args = [])
    (hcallable : values.callable nameSpan = some signature)
    (hmem : (param, arg) ∈ signature.params.zip args) :
    (Transfer.value (.declared param) arg).Passes values := by
  unfold checkArguments at h
  rw [hcallable] at h
  exact ⟨none, List.flatMap_eq_nil_iff.mp h (param, arg) hmem⟩

theorem ExprTransfer.passes {expr : Expr} (h : ExprTransfer values expr transfer)
    (hcheck : checkExpr values expr = []) : transfer.Passes values := by
  cases h with
  | argument hcallable hmem => exact passes_of_checkArguments hcheck hcallable hmem
  | append hsource helement hmem =>
    rw [checkExpr, hsource.expression, Option.bind_some, helement] at hcheck
    exact ⟨none, List.flatMap_eq_nil_iff.mp hcheck _ hmem⟩
  | structLiteral htype =>
    rw [checkExpr, htype] at hcheck
    exact ⟨none, hcheck⟩

theorem ExprTransfer.passes_of_call {span nameSpan : Span} {name : String} {args : List Expr}
    (h : ExprTransfer values (.call span name nameSpan args) transfer)
    (hcheck : checkArguments values nameSpan args = []) : transfer.Passes values :=
  h.passes hcheck

theorem Destructures.passes {source : SourceValueType} {bindings : List StructBinding}
    (h : Destructures values source bindings transfer)
    (hcheck : checkDestructure values (some source) bindings = []) : transfer.Passes values := by
  obtain ⟨binding, hmem, expected, actual, htype, hfield, rfl⟩ := h
  have hbinding := List.flatMap_eq_nil_iff.mp hcheck binding hmem
  unfold checkBinding at hbinding
  rw [htype, hfield] at hbinding
  exact ⟨binding.span, some binding.name, hbinding⟩

theorem StatementTransfer.passes {statement : Statement}
    (h : StatementTransfer values result statement transfer)
    (hcheck : checkStatement values result statement = []) : transfer.Passes values := by
  cases h with
  | definition htype =>
    rw [checkStatement, htype] at hcheck
    exact ⟨_, hcheck⟩
  | assignment htype =>
    rw [checkStatement, htype] at hcheck
    exact ⟨none, hcheck⟩
  | returned hresult hmem =>
    subst hresult
    exact ⟨none, List.flatMap_eq_nil_iff.mp hcheck _ hmem⟩
  | argument h => exact h.passes_of_call hcheck
  | assignedArgument h =>
    unfold checkStatement at hcheck
    exact h.passes_of_call (List.append_eq_nil_iff.mp hcheck).1
  | assigned htype hresult =>
    rw [checkStatement, List.append_eq_nil_iff, htype, hresult] at hcheck
    exact ⟨_, _, hcheck.2⟩
  | destructured hsource h =>
    rw [checkStatement, List.append_eq_nil_iff] at hcheck
    rcases hsource with hsource | hsource
    · rw [hsource] at hcheck
      exact h.passes hcheck.1
    · rw [hsource.expression] at hcheck
      exact h.passes hcheck.2
  | destructuredArgument h =>
    rw [checkStatement, List.append_eq_nil_iff, List.append_eq_nil_iff] at hcheck
    exact h.passes_of_call hcheck.1.1
  | destructuredCall hsource h =>
    rw [checkStatement, List.append_eq_nil_iff, List.append_eq_nil_iff] at hcheck
    rcases hsource with hsource | hsource
    · rw [hsource] at hcheck
      exact h.passes hcheck.1.2
    · rw [hsource] at hcheck
      exact h.passes hcheck.2
  | splitPart htype hside hexpected =>
    rw [checkStatement, Expr.isSplit, if_pos rfl, htype.expression] at hcheck
    rcases hside with rfl | rfl
    · have hleft := List.flatMap_eq_nil_iff.mp hcheck _ List.mem_cons_self
      dsimp only at hleft
      rw [hexpected] at hleft
      exact ⟨_, _, hleft⟩
    · have hright := List.flatMap_eq_nil_iff.mp hcheck _
        (List.mem_cons_of_mem _ List.mem_cons_self)
      dsimp only at hright
      rw [hexpected] at hright
      exact ⟨_, _, hright⟩

end

/-! ## programs -/

namespace Owner
variable {owner : Owner} {transfer : Transfer}

theorem visited_of_errors (h : owner.errors = []) :
    (∀ item ∈ owner.statements, item.2.Visited owner.values item.1) ∧
      (∀ successor ∈ owner.successors, ∀ expr ∈ successor.exprs,
        visitExpr owner.values expr = []) ∧
      ∀ expr ∈ owner.otherExprs, visitExpr owner.values expr = [] := by
  unfold errors at h
  rw [List.append_eq_nil_iff] at h
  replace h := h.2
  have hfunction : ∀ function : FunctionBody, visitFunction owner.values function = [] →
      ∀ item ∈ (allStatements function.body).map fun statement =>
        (function.result.map SourceValueType.declared, statement),
          item.2.Visited owner.values item.1 := by
    intro function hvisit item hmem
    obtain ⟨statement, hstatement, rfl⟩ := List.mem_map.mp hmem
    exact visited_of_visitStatements function.body hvisit statement hstatement
  unfold bodyErrors at h
  unfold statements successors otherExprs
  cases hbody : owner.body with
  | const name ty expr =>
    rw [hbody] at h
    refine ⟨fun item hmem => absurd hmem List.not_mem_nil,
      fun successor hmem => absurd hmem List.not_mem_nil, fun other hmem => ?_⟩
    rw [List.mem_singleton.mp hmem]
    exact (List.append_eq_nil_iff.mp h).2
  | function function =>
    rw [hbody] at h
    exact ⟨hfunction function h, fun successor hmem => absurd hmem List.not_mem_nil,
      fun expr hmem => absurd hmem List.not_mem_nil⟩
  | actor functions entries =>
    rw [hbody] at h
    obtain ⟨hfunctions, hentries⟩ := List.append_eq_nil_iff.mp h
    have hentry : ∀ entry ∈ entries, EntryVisited owner.values none (entryStatements entry)
        (entrySuccessors entry) (entryConditions entry) := by
      intro entry hmem
      exact entryVisited_of_visitAll entry (List.flatMap_eq_nil_iff.mp hentries entry hmem)
    refine ⟨fun item hmem => ?_, fun successor hmem => ?_, fun expr hmem => ?_⟩
    · rcases List.mem_append.mp hmem with hmem | hmem
      · obtain ⟨function, hmemFunction, hmem⟩ := List.mem_flatMap.mp hmem
        have hvisit := List.flatMap_eq_nil_iff.mp hfunctions function hmemFunction
        exact hfunction function hvisit item hmem
      · obtain ⟨statement, hstatement, rfl⟩ := List.mem_map.mp hmem
        obtain ⟨entry, hmemEntry, hstatement⟩ := List.mem_flatMap.mp hstatement
        exact (hentry entry hmemEntry).statements statement hstatement
    · obtain ⟨entry, hmemEntry, hmem⟩ := List.mem_flatMap.mp hmem
      exact (hentry entry hmemEntry).successors successor hmem
    · obtain ⟨entry, hmemEntry, hmem⟩ := List.mem_flatMap.mp hmem
      exact (hentry entry hmemEntry).conditions expr hmem
  | other =>
    exact ⟨fun item hmem => absurd hmem List.not_mem_nil,
      fun successor hmem => absurd hmem List.not_mem_nil,
      fun expr hmem => absurd hmem List.not_mem_nil⟩

theorem visitExpr_of_errors (h : owner.errors = []) : ∀ root ∈ owner.exprs,
    visitExpr owner.values root = [] := by
  obtain ⟨hstatements, hsuccessors, hother⟩ := visited_of_errors h
  intro root hroot
  unfold exprs at hroot
  rcases List.mem_append.mp hroot with hroot | hroot
  · rcases List.mem_append.mp hroot with hroot | hroot
    · exact hother root hroot
    · obtain ⟨successor, hmem, hroot⟩ := List.mem_flatMap.mp hroot
      exact hsuccessors successor hmem root hroot
  · obtain ⟨item, hmem, hroot⟩ := List.mem_flatMap.mp hroot
    exact (hstatements item hmem).2 root hroot

/-- **every transfer of an accepted declaration is checked** -/
theorem Transfers.passes (htransfer : owner.Transfers transfer) (h : owner.errors = []) :
    transfer.Passes owner.values := by
  cases htransfer with
  | const hbody =>
    unfold errors bodyErrors at h
    rw [hbody] at h
    exact ⟨_, (List.append_eq_nil_iff.mp (List.append_eq_nil_iff.mp h).2).1⟩
  | statement hmem hstatement =>
    exact hstatement.passes ((visited_of_errors h).1 _ hmem).1
  | expr hroot hnode hexpr =>
    exact hexpr.passes (checkExpr_of_visitExpr (visitExpr_of_errors h _ hroot) hnode)

end Owner

theorem errors_of_validate {owners : List Owner} {actors : List DeclId} {owner : Owner}
    (h : validateActorValuePolicy owners actors = .ok ⟨⟩) (hmem : owner ∈ owners)
    (hselected : owner.isSelected actors = true) : owner.errors = [] := by
  have howner := forM_ok_of_mem h (List.mem_filter.mpr ⟨hmem, hselected⟩)
  cases herrors : owner.errors with
  | nil => rfl
  | cons error errors =>
    rw [herrors] at howner
    cases howner

/-- the state of the actor that a route of `become` names -/
def targetState (values : SourceValues) (actor : Expr) : Option DeclId :=
  match values.references actor.span with
  | some (.source (.declaration id)) => values.program.actorState id
  | some (.source (.appMember member)) => values.program.actorState member.actor
  | some (.enumVariant _ actor) => values.program.actorState actor
  | _ => none

theorem Expr.mem_nodes (expr : Expr) : expr ∈ expr.nodes := by
  cases expr with
  | identifier | call | arrayIndex | fieldAccess | structLiteral | new | array | append | slice
  | split | node =>
    rw [Expr.nodes]
    exact List.mem_cons_self

/-- **Actor handles stay apart.**  Where the policy accepts a program, no actor enum and no handle of
another state comes to stand for a handle, be it by definition, assignment, return, argument,
destructuring, as an appended value, as an element or a field of a literal that stands in a place
with a type, or as a field of a literal that names its type; and none does in the state of a route
that has the state of its target. -/
theorem validateActorValuePolicy_sound {owners : List Owner} {actors : List DeclId}
    (h : validateActorValuePolicy owners actors = .ok ⟨⟩) :
    ∀ owner ∈ owners, owner.isSelected actors = true →
      (∀ transfer, owner.Transfers transfer → ∀ place actual,
        Leads owner.values Eq transfer place actual → ¬ Leaks place actual) ∧
      ∀ actor state many, .constructed actor state many ∈ owner.successors →
        ∀ target ty, targetState owner.values actor = some target →
          HasType owner.values state ty → ty.base = .state target → state.isArray = false →
            ∀ place actual, Leads owner.values Eq (.value ⟨.state target, ty.dimensions, none⟩ state)
              place actual → ¬ Leaks place actual := by
  intro owner hmem hselected
  have herrors := errors_of_validate h hmem hselected
  refine ⟨fun transfer htransfer place actual hleads => ?_, ?_⟩
  · exact hleads.not_leaks (htransfer.passes herrors)
  intro actor state many hroute target ty _ htype hbase harray place actual hleads
  have hdims : (⟨.state target, ty.dimensions, none⟩ : SourceValueType).dimensions = ty.dimensions :=
    rfl
  refine hleads.not_leaks_of_type htype hbase.symm hdims harray fun hstruct => ?_
  -- a literal of the route names its type, so it is checked where it stands
  cases htype with
  | structLiteral htypeAt =>
    have hroot : _ ∈ owner.exprs := List.mem_append_left _ (List.mem_append_right _
      (List.mem_flatMap.mpr ⟨_, hroute, List.mem_cons_of_mem _ List.mem_cons_self⟩))
    exact (Owner.Transfers.expr hroot (Expr.mem_nodes _) (.structLiteral htypeAt)).passes herrors
  | identifier | stateCall | call | arrayIndex | observedInput | selfField | field | new | array
  | append | slice | split => cases hstruct

/-! ## two states with a field of one name -/

section

def gameId : DeclId := ⟨0, .state, 0⟩
def slotId : DeclId := ⟨0, .state, 1⟩
def choiceId : DeclId := ⟨0, .state, 2⟩
def muxId : DeclId := ⟨0, .actor, 0⟩
def vaultId : DeclId := ⟨0, .actor, 1⟩
def moveId : DeclId := ⟨0, .actorEnum, 0⟩

def boardState (id : DeclId) : Option StateDecl :=
  if id = gameId then some ⟨["n"], none⟩
  else if id = slotId then some ⟨["handle"], none⟩
  else if id = choiceId then some ⟨["handle"], none⟩
  else none

/-- a slot holds the handle of a game, a choice a move -/
def boardProgram : Program where
  states := [gameId, slotId, choiceId]
  stateDecl := boardState
  listed state declaration h := by
    unfold boardState at h
    split_ifs at h with hgame hslot hchoice
    · exact hgame ▸ List.mem_cons_self
    · exact hslot ▸ List.mem_cons_of_mem _ List.mem_cons_self
    · exact hchoice ▸ List.mem_cons_of_mem _ (List.mem_cons_of_mem _ List.mem_cons_self)
  actorState id := if id = vaultId then some slotId else some gameId
  names _ _ := none
  stateFields id _ :=
    if id = slotId then some ⟨.actorHandle gameId, none⟩
    else if id = choiceId then some ⟨.actorEnum moveId, none⟩
    else some ⟨.builtin "int", none⟩
  resolveFieldType _ _ := none
  callables _ := none
  constants _ := none
  declarationName _ := ""
  sourceDeclarationName _ _ := none

/-- `picked` is a choice, `known` the handle of a game; types stand at 0 and at 60 -/
def boardValues : SourceValues where
  program := boardProgram
  owner := muxId
  references span :=
    if span = (10, 16) then some (.local 0)
    else if span = (30, 35) then some (.source (.declaration vaultId))
    else if span = (50, 57) then some (.enumVariant moveId vaultId)
    else if span = (70, 75) then some (.local 1)
    else none
  typeSites start :=
    if start = 0 then some (.ofState slotId)
    else if start = 60 then some ⟨.actorHandle gameId, [], none⟩
    else none
  locals id := if id = 0 then some (.ofState choiceId) else some ⟨.actorHandle gameId, [], none⟩
  observedInputs _ := none
  actorState := some gameId
  text _ := ""

/-- `actor_type<Game> target = known;` -/
def targetStatement : Statement :=
  .variableDefinition (60, 70) "target" (some (.identifier (70, 75) "known"))

/-- `Slot slot = picked;` -/
def slotStatement : Statement :=
  .variableDefinition (0, 4) "slot" (some (.identifier (10, 16) "picked"))

/-- `{ handle: Move::B }` -/
def slotLiteral : Expr :=
  .structLiteral (36, 58) "" (36, 36) [("handle", .identifier (50, 57) "Move::B")]

/-- the state of `become next <- Vault({ handle: Move::B });` -/
def slotSuccessor : Successor := .constructed (.identifier (30, 35) "Vault") slotLiteral false

def keptOwner : Owner := ⟨boardValues, [], .actor [] [[.sil targetStatement]]⟩

def leakingOwner : Owner :=
  ⟨boardValues, [], .actor [] [[.sil slotStatement, .becomes [slotSuccessor]]]⟩

theorem validateActorValuePolicy_sound_kept :
    validateActorValuePolicy [keptOwner] [muxId] = .ok ⟨⟩ ∧
      ∀ transfer, keptOwner.Transfers transfer → ∀ place actual,
        Leads keptOwner.values Eq transfer place actual → ¬ Leaks place actual := by
  have h : validateActorValuePolicy [keptOwner] [muxId] = .ok ⟨⟩ := rfl
  exact ⟨h, (validateActorValuePolicy_sound h keptOwner List.mem_cons_self rfl).1⟩

/-- the policy does not compare states, and does not look into the unnamed literal of a route -/
theorem accepted_leaks : validateActorValuePolicy [leakingOwner] [muxId] = .ok ⟨⟩ ∧
    (∃ transfer place actual, leakingOwner.Transfers transfer ∧
      Leads boardValues (fun _ _ => True) transfer place actual ∧ Leaks place actual) ∧
    ∃ actor state place actual, .constructed actor state false ∈ leakingOwner.successors ∧
      targetState boardValues actor = some slotId ∧
      Leads boardValues Eq (.value (.ofState slotId) state) place actual ∧ Leaks place actual := by
  refine ⟨rfl, ?_, ?_⟩
  · refine ⟨.value (.ofState slotId) (.identifier (10, 16) "picked"), .declared
      ⟨.actorHandle gameId, none⟩, .declared ⟨.actorEnum moveId, none⟩, ?_, ?_, ?_⟩
    · exact .statement (List.mem_singleton_self _) (.definition rfl)
    · have hplace : boardProgram.field (.ofState slotId) "handle" =
          some (.declared ⟨.actorHandle gameId, none⟩) := rfl
      exact .whole (.value (.identifier rfl)) rfl rfl trivial hplace rfl
    · exact ⟨gameId, rfl, .inl ⟨moveId, rfl⟩⟩
  · refine ⟨.identifier (30, 35) "Vault", slotLiteral, .declared ⟨.actorHandle gameId, none⟩,
      ⟨.actorEnum moveId, [], none⟩, List.mem_singleton_self _, rfl, ?_, ?_⟩
    · exact .field rfl List.mem_cons_self rfl (.value (.identifier rfl))
    · exact ⟨gameId, rfl, .inl ⟨moveId, rfl⟩⟩

end

end Argent.ActorValues
