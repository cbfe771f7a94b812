import Argent.Resolve.OutputNames

/-!
# Names of locals in Silverscript

`compiler/codegen/sil/names.rs`: the locals of a body are given names that no declaration has.  All
locals with one spelling get one name, and a local with the spelling of a constant or of a state field
keeps it, so that Silverscript sees what is shadowed.

* `LocalScope`          what the names of the locals of one body depend on;
* `freshName`           the loop over suffixes;
* `LocalScope.emittedNames`      the names.
-/

set_option linter.unusedSectionVars false

namespace Argent.Codegen.SilNames
open Argent.Resolve

/-- the part of a declaration that an authored site belongs to -/
inductive RootSlot where
  | declaration
  | name
  | constType
  | constValue
  | stateBase
  | fieldType (index : Nat)
  | fieldName (index : Nat)
  | digestField (index : Nat)
  | digestState (index : Nat)
  | actorState
  | actorFunction (index : Nat)
  | entry (index : Nat)
  | actorEnumVariant (index : Nat)
  | appActor (index : Nat)
deriving DecidableEq, Repr

structure LocalId where
  owner : DeclId
  callable : RootSlot
  index : Nat
deriving DecidableEq, Repr

/-- an actor of the selected app: the names of its functions, and of the fields that its state is
stored as, if these are known -/
structure OwningActor where
  functions : List String
  storageFields : Option (List String)
deriving DecidableEq, Repr

/-- the bindings of a declaration, seen from one of its bodies -/
structure LocalScope where
  /-- the output names of the declarations -/
  displayNames : List (DeclId × String)
  sourceName : DeclId → String
  /-- an output name is the name in the source, or a generated one -/
  kept : ∀ item ∈ displayNames, item.2 = sourceName item.1 ∨
    ∃ suffix, item.2 = generatedName suffix (sourceName item.1)
  /-- the generated fields of the state of the owner -/
  generatedFields : List String
  actor : Option OwningActor
  owner : DeclId
  root : RootSlot
  /-- the locals of all bodies of the owner, in the order in which they are bound -/
  localNames : List (LocalId × String)
  distinct : (localNames.map Prod.fst).Nodup
  /-- the spelling of a local is a name of the source -/
  written : ∀ item ∈ localNames, Written item.2

/-- `format!("{base}__{suffix}")` -/
def suffixed (base : String) (suffix : Nat) : String := base ++ "__" ++ toString suffix

/-- the loop, for at most `fuel` iterations; without a value it has not ended -/
def freshName (occupied authored : List String) (base : String) (fuel suffix : Nat) (name : String) :
    Option String :=
  if name ∈ occupied ∨ name ≠ base ∧ name ∈ authored then
    match fuel with
    | 0 => none
    | fuel + 1 => freshName occupied authored base fuel (suffix + 1) (suffixed base suffix)
  else some name

/-- the names so far -/
structure Naming where
  occupied : List String
  /-- the name of each spelling, the last one first -/
  sourceNames : List (String × String)
  localNames : List (LocalId × String)
deriving DecidableEq, Repr

namespace LocalScope
variable (scope : LocalScope)

/-- the bodies of functions are emitted outside the contract -/
def global : Bool := decide (scope.root = .declaration ∧ scope.owner.kind = .function)

def baseName (source : String) : String :=
  if scope.global then "gen__glob_" ++ source else source

def constNames : List String :=
  (scope.displayNames.filter fun item => item.1.kind = .const).map Prod.snd

def actorFunctions : List String := scope.actor.elim [] OwningActor.functions

def ownedFields : List String := (scope.actor.bind OwningActor.storageFields).getD []

/-- the names that no local may get -/
def reserved : List String :=
  scope.displayNames.map Prod.snd ++ ["State", "this", "tx"] ++ scope.generatedFields ++
    scope.actorFunctions ++ scope.ownedFields

/-- before the first local -/
def initial : Naming where
  occupied := scope.reserved
  sourceNames := scope.ownedFields.map (fun field => (field, field)) ++
    scope.constNames.map fun name => (name, name)
  localNames := []

/-- the locals of the body -/
def bodyLocals : List (LocalId × String) :=
  scope.localNames.filter fun item => item.1.callable = scope.root

def authored : List String := scope.bodyLocals.map fun item => scope.baseName item.2

/-- the name of a local whose spelling is new -/
def newName (naming : Naming) (item : LocalId × String) : Option String :=
  let base := scope.baseName item.2
  match scope.root with
  | .entry _ => some base
  | _ => freshName naming.occupied scope.authored base
      (naming.occupied.length + scope.authored.length + 1) item.1.index base

/-- one local of the body -/
def nameLocal (naming : Naming) (item : LocalId × String) : Option Naming :=
  match naming.sourceNames.lookup item.2 with
  | some name => some { naming with localNames := naming.localNames ++ [(item.1, name)] }
  | none => do
    let name ← scope.newName naming item
    some {
      occupied := name :: naming.occupied
      sourceNames := (item.2, name) :: naming.sourceNames
      localNames := naming.localNames ++ [(item.1, name)] }

/-- the names of the locals of the body -/
def emittedNames : Option (List (LocalId × String)) := do
  let naming ← scope.bodyLocals.foldlM scope.nameLocal scope.initial
  some naming.localNames

end LocalScope

end Argent.Codegen.SilNames
