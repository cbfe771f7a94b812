import Argent.Base.Expansion
import Argent.Base.Fallible
import Argent.Resolve.Modules

/-!
# Packed widths of state fields

`compiler/model/layout.rs`: the width of a state field, which may itself hold a state.  A state of this
build and a linked one name the states in their fields in different tables, and an expanded state is
stored as another one.

* `StateTables`          the tables of states of a compilation;
* `packedFieldLen`       the width of a type that holds no state;
* `packedLayoutFieldLen`      the width of a field.
-/

set_option linter.unusedSectionVars false

namespace Argent.Layout
open Argent.Fallible Argent.Resolve

/-! ## declarations -/

abbrev Usize := Fin (2 ^ 64)

inductive ArrayDim where
  | dynamic
  | fixed (len : Usize)
deriving DecidableEq, Repr

structure TypeRef where
  name : String
  array : Option ArrayDim
  actorState : Option String
deriving DecidableEq, Repr

def TypeRef.isActorType (ty : TypeRef) : Bool :=
  decide (ty.name = "actor_type" ∧ ty.array = none) && ty.actorState.isSome

structure FieldDecl where
  ty : TypeRef
  name : String
deriving DecidableEq, Repr

structure StateDecl where
  name : String
  fields : List FieldDecl
deriving DecidableEq, Repr

/-- where a state is declared, in this build or in a dependency -/
inductive DeclarationOrigin where
  | source (path : String) (kind : SymbolKind) (index : Nat)
  | dependency (app name : String) (kind : SymbolKind)
deriving DecidableEq, Repr

/-- nominal identity of a source state -/
structure SourceStateId where
  origin : DeclarationOrigin
deriving DecidableEq, Repr

structure SourceFieldId where
  state : SourceStateId
  field : String
deriving DecidableEq, Repr

inductive ResolvedTypeBase where
  | builtin (name : String)
  | state (id : DeclId)
  | actor (id : DeclId)
  | actorEnum (id : DeclId)
  | actorHandle (id : DeclId)
deriving DecidableEq, Repr

structure ResolvedType where
  base : ResolvedTypeBase
  array : Option ArrayDim
deriving DecidableEq, Repr

/-! ## tables -/

/-- The tables that tell the states apart; a table lists its keys with their values. -/
structure StateTables where
  states : List (String × StateDecl)
  linkedStates : List (String × StateDecl)
  stateNamesBySource : List (SourceStateId × String)
  stateDeclIdsBySource : List (SourceStateId × DeclId)
  storageSourceBySource : List (SourceStateId × SourceStateId)
  /-- the states in the fields of linked states -/
  linkedFieldSources : List (SourceFieldId × SourceStateId)
  /-- the types of the fields of the states of this build -/
  stateFields : List ((DeclId × Nat) × ResolvedType)
  declarationPath : DeclId → String
  /-- the name that a state goes by in messages -/
  asStr : SourceStateId → String

namespace StateTables
variable (model : StateTables)

def state (name : String) : Except String StateDecl :=
  okOr ((model.states.lookup name).or (model.linkedStates.lookup name)) s!"unknown state `{name}`"

/-- a declaration of this build as a source state -/
def sourceStateIdByDecl (id : DeclId) : Except String SourceStateId :=
  if id.kind ≠ .state then .error "resolved source identity is not a state declaration"
  else
    let source : SourceStateId := ⟨.source (model.declarationPath id) .state id.index⟩
    match model.stateNamesBySource.lookup source with
    | none => .error "resolved state has no selected source identity"
    | some _ => .ok source

def stateBySource (source : SourceStateId) : Except String StateDecl :=
  match model.stateNamesBySource.lookup source with
  | some name => model.state name
  | none => do
    let _ ← model.state (model.asStr source)
    .error s!"state `{model.asStr source}` has conflicting source identity"

/-- an expanded state is stored as the state that it expands -/
def storageSourceId (source : SourceStateId) : SourceStateId :=
  (model.storageSourceBySource.lookup source).getD source

def storageStateBySource (source : SourceStateId) : Except String StateDecl :=
  model.stateBySource (model.storageSourceId source)

def stateDeclIdBySource (source : SourceStateId) : Option DeclId :=
  model.stateDeclIdsBySource.lookup source

/-- the state in a field of the stored state `owner` -/
def fieldTarget (owner : SourceStateId) (index : Nat) (field : String) :
    Except String (Option SourceStateId) :=
  match model.stateDeclIdBySource owner with
  | some ownerId =>
    match model.stateFields.lookup (ownerId, index) with
    | some ⟨.state state, _⟩ => (model.sourceStateIdByDecl state).map some
    | some _ => .ok none
    | none => .error s!"state `{model.asStr owner}` field `{field}` has no resolved type"
  | none => .ok (model.linkedFieldSources.lookup ⟨owner, field⟩)

end StateTables

/-! ## widths -/

/-- the packed byte width of a supported state field -/
def packedFieldLen (ty : TypeRef) : Except String Nat :=
  if ty.isActorType then .ok 32
  else
    match ty.name, ty.array with
    | "int", none | "temporal", none => .ok 8
    | "bool", none | "byte", none => .ok 1
    | "byte", some (.fixed len) => .ok len
    | "pubkey", none | "cov_id", none => .ok 32
    | "sig", none => .ok 65
    | "datasig", none => .ok 64
    | "bytes", none | "string", none | _, some _ =>
      .error "only fixed-width scalar fields are supported"
    | name, none => .error s!"unsupported type `{name}`"

/-- a field of a stored state: its type, the state, its position and its name -/
structure FieldSite where
  ty : TypeRef
  owner : SourceStateId
  index : Nat
  field : String
deriving DecidableEq, Repr

/-- the fields of a stored state -/
def fieldSites (owner : SourceStateId) (state : StateDecl) : List FieldSite :=
  state.fields.zipIdx.map fun field => ⟨field.1.ty, owner, field.2, field.1.name⟩

/-- the widths of fields added to `sum`, as `measure` has them -/
def sumWidths (name : String) (measure : FieldSite → Option (Except String Nat)) :
    List FieldSite → Nat → Option (Except String Nat)
  | [], sum => some (.ok sum)
  | site :: sites, sum =>
    match measure site with
    | none => none
    | some (.error error) => some (.error error)
    | some (.ok len) =>
      if sum + len < 2 ^ 64 then sumWidths name measure sites (sum + len)
      else some (.error s!"state `{name}` packed width overflows")

/-- the width of a field, for states that nest at most `fuel` deep; `visiting` are the states around
the field -/
def packedLayoutFieldLenInner (model : StateTables) (fuel : Nat) (visiting : List SourceStateId)
    (site : FieldSite) : Option (Except String Nat) :=
  match packedFieldLen site.ty with
  | .ok len => some (.ok len)
  | .error error =>
    if site.ty.array.isSome then some (.error error)
    else
      match model.fieldTarget site.owner site.index site.field with
      | .error unresolved => some (.error unresolved)
      | .ok none => some (.error error)
      | .ok (some target) =>
        if target ∈ visiting then
          some (.error s!"recursive state field type `{site.ty.name}` has no fixed packed width")
        else
          match fuel with
          | 0 => none
          | fuel + 1 =>
            match model.storageStateBySource target with
            | .error unknown => some (.error unknown)
            | .ok state =>
              -- the target leaves `visiting` again after its last field
              sumWidths site.ty.name (packedLayoutFieldLenInner model fuel (target :: visiting))
                (fieldSites (model.storageSourceId target) state) 0

/-- the states that a field can hold -/
def StateTables.targets (model : StateTables) : List SourceStateId :=
  model.stateNamesBySource.map Prod.fst ++ model.linkedFieldSources.map Prod.snd

/-- each state around a field is another one of the states that fields can hold -/
def packedLayoutFieldLen (model : StateTables) (ty : TypeRef) (owner : SourceStateId) (index : Nat)
    (field : String) : Option (Except String Nat) :=
  packedLayoutFieldLenInner model model.targets.length [] ⟨ty, owner, index, field⟩

end Argent.Layout
