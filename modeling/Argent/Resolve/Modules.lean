import Argent.Base.BTree
import Argent.Base.Fallible
import Argent.Model.Entry
import Mathlib.Data.List.Lex

/-!
# Modules of a program

The parsed modules of `compiler/syntax/mod.rs` with the identities of `compiler/syntax/node.rs`, as
far as names are resolved in them, and the names of `compiler/resolve/mod.rs`.

* `DeclId`, `ResolvedName`       what a name refers to, ordered as the source orders it;
* `Module`                       the declarations of one file;
* `ModuleGraph`                  modules with their imports, each inside the graph;
* `pathSegments`                 `reference.split("::")`.
-/

set_option linter.unusedSectionVars false

namespace Argent.Resolve

/-- an error, with the file it is reported for -/
structure ArgentError where
  path : Option String
  message : String
deriving Repr, DecidableEq

/-- `ArgentError::at` -/
def ArgentError.at (path message : String) : ArgentError := ⟨some path, message⟩

/-- `ArgentError::new` -/
def ArgentError.new (message : String) : ArgentError := ⟨none, message⟩

/-! ## identities -/

/-- index of a module in the frozen source set -/
abbrev ModuleId := Nat

inductive SymbolKind where
  | const
  | state
  | function
  | actor
  | actorEnum
  | app
deriving Repr, DecidableEq

namespace SymbolKind

/-- the place of a kind in the derived order -/
def rank : SymbolKind → Nat
  | const => 0
  | state => 1
  | function => 2
  | actor => 3
  | actorEnum => 4
  | app => 5

theorem rank_inj {k k' : SymbolKind} (h : k.rank = k'.rank) : k = k' := by
  cases k <;> cases k' <;> first | rfl | cases h

/-- the kinds, in the order in which a module's declarations are visited -/
def all : List SymbolKind := [const, state, function, actor, actorEnum, app]

theorem mem_all (k : SymbolKind) : k ∈ all := by
  cases k <;> decide

def description : SymbolKind → String
  | const => "a constant"
  | state => "a state"
  | function => "a function"
  | actor => "an actor"
  | actorEnum => "an actor enum"
  | app => "an app"

end SymbolKind

/-- a top-level declaration, indexed within its module and declaration kind -/
structure DeclId where
  moduleId : ModuleId
  kind : SymbolKind
  index : Nat
deriving Repr

/-- the fields in the order in which they are compared -/
def DeclId.key (id : DeclId) : List Nat := [id.moduleId, id.kind.rank, id.index]

theorem DeclId.key_inj {a b : DeclId} (h : a.key = b.key) : a = b := by
  obtain ⟨m, k, i⟩ := a
  obtain ⟨m', k', i'⟩ := b
  simp only [DeclId.key, List.cons.injEq, and_true] at h
  obtain ⟨rfl, hk, rfl⟩ := h
  rw [SymbolKind.rank_inj hk]

instance : LinearOrder DeclId := LinearOrder.lift' DeclId.key fun _ _ h => DeclId.key_inj h

instance : LawfulBEq DeclId := inferInstance

/-- an actor of an app -/
structure AppMember where
  app : DeclId
  actor : DeclId
deriving Repr

def AppMember.key (member : AppMember) : List Nat := member.app.key ++ member.actor.key

theorem AppMember.key_inj {a b : AppMember} (h : a.key = b.key) : a = b := by
  obtain ⟨app, actor⟩ := a
  obtain ⟨app', actor'⟩ := b
  obtain ⟨happ, hactor⟩ := List.append_inj h rfl
  obtain rfl : app = app' := DeclId.key_inj happ
  obtain rfl : actor = actor' := DeclId.key_inj hactor
  rfl

instance : LinearOrder AppMember := LinearOrder.lift' AppMember.key fun _ _ h => AppMember.key_inj h

/-- what a name refers to -/
inductive ResolvedName where
  | namespaceOf (id : ModuleId)
  | declaration (id : DeclId)
  | appMember (member : AppMember)
deriving Repr

def ResolvedName.key : ResolvedName → List Nat
  | namespaceOf id => [0, id]
  | declaration id => 1 :: id.key
  | appMember member => 2 :: member.key

theorem ResolvedName.key_inj {a b : ResolvedName} (h : a.key = b.key) : a = b := by
  cases a with
  | namespaceOf id =>
    cases b with
    | namespaceOf id' =>
      simp only [key, List.cons.injEq, true_and, and_true] at h
      rw [h]
    | declaration id' => cases h
    | appMember member' => cases h
  | declaration id =>
    cases b with
    | namespaceOf id' => cases h
    | declaration id' => rw [DeclId.key_inj (List.tail_eq_of_cons_eq h)]
    | appMember member' => cases h
  | appMember member =>
    cases b with
    | namespaceOf id' => cases h
    | declaration id' => cases h
    | appMember member' => rw [AppMember.key_inj (List.tail_eq_of_cons_eq h)]

instance : LinearOrder ResolvedName :=
  LinearOrder.lift' ResolvedName.key fun _ _ h => ResolvedName.key_inj h

/-! ## declarations -/

inductive ArrayDim where
  | dynamic
  | fixed (len : Nat)
deriving Repr, DecidableEq

structure TypeRef where
  name : String
  array : Option ArrayDim := none
  actorState : Option String := none
deriving Repr, DecidableEq

/-- the type as it is written in the source -/
def TypeRef.toSource (ty : TypeRef) : String :=
  match ty.actorState, ty.array with
  | some state, _ => s!"actor_type<{state}>"
  | none, some .dynamic => s!"{ty.name}[]"
  | none, some (.fixed len) => s!"{ty.name}[{len}]"
  | none, none => ty.name

inductive BinaryOp where
  | add
  | sub
  | mul
  | div
  | mod
  | other
deriving Repr, DecidableEq

/-- the expression of a constant; `other` is every form without an integer value -/
inductive ConstExpr where
  | int (value : Int)
  | identifier (name : String)
  | neg (expr : ConstExpr)
  | binary (op : BinaryOp) (left right : ConstExpr)
  | other
deriving Repr, DecidableEq

structure ConstDecl where
  ty : TypeRef
  name : String
  value : ConstExpr
deriving Repr, DecidableEq

/-- one bound of a clause range, as it is written -/
inductive CardinalityBound where
  | literal (value : Int)
  | const (name : String)
deriving Repr, DecidableEq

/-- the number of transaction items one clause handle stands for -/
inductive Cardinality where
  | one
  | range (minimum maximum : CardinalityBound)
deriving Repr, DecidableEq

/-- an item of a clause: its handle and its cardinality -/
structure HandleDecl where
  name : String
  cardinality : Cardinality
deriving Repr, DecidableEq

structure ObserveDecl where
  inputs : List HandleDecl
  outputs : List HandleDecl
deriving Repr, DecidableEq

structure SpawnDecl where
  outputs : List HandleDecl
deriving Repr, DecidableEq

structure EntryDecl where
  name : String
  consumes : List HandleDecl
  emits : List HandleDecl
  observes : List ObserveDecl
  spawns : List SpawnDecl
deriving Repr, DecidableEq

/-- a state: the names of its fields, and the state that it expands -/
structure StateDecl where
  name : String
  fields : List String
  expansionBase : Option String
deriving Repr, DecidableEq

/-- an actor; of its own functions, the names -/
structure ActorDecl where
  name : String
  state : String
  functions : List String
  entries : List EntryDecl
deriving Repr, DecidableEq

structure AppDecl where
  name : String
  actors : List String
deriving Repr, DecidableEq

/-- the declarations of one file; of a declaration whose references are not followed, its name -/
structure Module where
  path : String
  consts : List ConstDecl
  states : List StateDecl
  functions : List String
  actors : List ActorDecl
  actorEnums : List String
  apps : List AppDecl
deriving Repr, DecidableEq

namespace Module

/-- the names of the declarations of a kind, in source order -/
def names (m : Module) : SymbolKind → List String
  | .const => m.consts.map ConstDecl.name
  | .state => m.states.map StateDecl.name
  | .function => m.functions
  | .actor => m.actors.map ActorDecl.name
  | .actorEnum => m.actorEnums
  | .app => m.apps.map AppDecl.name

end Module

structure ResolvedImport where
  target : ModuleId
  aliasName : Option String
deriving Repr, DecidableEq

/-- the loaded modules with the imports of each, every import inside the graph -/
structure ModuleGraph where
  modules : List Module
  imports : List (List ResolvedImport)
  length_eq : imports.length = modules.length
  targets_lt : ∀ moduleImports ∈ imports, ∀ i ∈ moduleImports, i.target < modules.length

namespace ModuleGraph

def importsOf (graph : ModuleGraph) (id : ModuleId) : List ResolvedImport :=
  graph.imports.getD id []

end ModuleGraph

/-! ## references -/

/-- the segments of the characters after `segment`, which is read in reverse -/
def segmentsFrom (segment : List Char) : List Char → List String
  | [] => [String.ofList segment.reverse]
  | ':' :: ':' :: chars => String.ofList segment.reverse :: segmentsFrom [] chars
  | c :: chars => segmentsFrom (c :: segment) chars

/-- `reference.split("::")` -/
def pathSegments (reference : String) : List String := segmentsFrom [] reference.toList

example : pathSegments "library::app::Actor" = ["library", "app", "Actor"] := by decide +kernel

end Argent.Resolve
