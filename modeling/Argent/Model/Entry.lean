import Argent.Model.Body
import Argent.Model.Naming

/-!
# Entries and apps

The completed entry models of `compiler/model/entry.rs` and the selected app of
`compiler/model/mod.rs`.  A declaration is known by its display name: the resolver keeps the display
names of the selected declarations distinct.

* `RangeBounds`, `ResolvedCardinality`      how many transaction items a handle stands for;
* `planInteractionLocations`     positions of the items of one clause section;
* `InteractionSection`           the items of a section at their planned positions;
* `EntryModel`, `ActorModel`, `App`.
-/

set_option linter.unusedSectionVars false

namespace Argent.Model
open Argent.Fallible

/-! ## identities -/

/-- a declaration of the selected app, by its display name -/
abbrev DeclId := String

structure LinkedActorId where
  app : String
  actor : String
deriving DecidableEq, Repr

/-- semantic identity of a fixed actor -/
inductive StaticActorId where
  | inApp (id : DeclId)
  | linked (id : LinkedActorId)
deriving DecidableEq, Repr

inductive EntryKind where
  | leader
  | delegate
deriving DecidableEq, Repr

/-! ## cardinalities and locations -/

def MAX_ENTRY_RANGE_CARDINALITY : Int := 512

/-- the bounds of a ranged handle after they were resolved -/
structure RangeBounds where
  minimum : Int
  maximum : Int
  nonneg : 0 ≤ minimum
  ordered : minimum ≤ maximum
  limited : maximum ≤ MAX_ENTRY_RANGE_CARDINALITY
deriving DecidableEq

inductive ResolvedCardinality where
  | one
  | range (bounds : RangeBounds)
deriving DecidableEq

namespace ResolvedCardinality

def isRange : ResolvedCardinality → Bool
  | one => false
  | range _ => true

def rangeBounds : ResolvedCardinality → Option RangeBounds
  | one => none
  | range bounds => some bounds

/-- the cardinality of a range handle from its resolved bounds -/
def resolveRange (actorName entryName handle : String) (minimum maximum : Int) :
    Except String ResolvedCardinality :=
  if h₁ : minimum < 0 ∨ maximum < 0 then
    .error (s!"entry `{actorName}::{entryName}` range `{handle}` must have non-negative bounds, " ++
      s!"found {minimum}..={maximum}")
  else if h₂ : maximum < minimum then
    .error (s!"entry `{actorName}::{entryName}` range `{handle}` minimum {minimum} exceeds maximum " ++
      s!"{maximum}")
  else if h₃ : MAX_ENTRY_RANGE_CARDINALITY < maximum then
    .error (s!"entry `{actorName}::{entryName}` range `{handle}` maximum {maximum} exceeds compiler " ++
      s!"limit {MAX_ENTRY_RANGE_CARDINALITY}")
  else
    .ok (.range ⟨minimum, maximum, by omega, by omega, by omega⟩)

end ResolvedCardinality

/-- a transaction position derived from one ordered clause section -/
inductive InteractionLocation where
  /-- a singleton at a fixed index from the section start -/
  | fromStart (index : Nat)
  /-- the ranged span; its length is the section count minus `singletonCount` -/
  | range (start singletonCount : Nat)
  /-- a singleton after the range, where one is the last section item -/
  | fromEnd (distance : Nat)
deriving DecidableEq, Repr

/-- the ranges of a section, each with its index -/
def sectionRanges (items : List (String × ResolvedCardinality)) : List (String × Nat) :=
  (items.zipIdx.filter fun item => item.1.2.isRange).map fun item => (item.1.1, item.2)

/-- the location of the item at `index` in a section of `len` items with its range at `rangeIndex` -/
def locationAt (len : Nat) (rangeIndex : Option Nat) (index : Nat) : InteractionLocation :=
  match rangeIndex with
  | none => .fromStart index
  | some rangeIndex =>
    if index < rangeIndex then .fromStart index
    else if index = rangeIndex then .range index (len - 1)
    else .fromEnd (len - index)

/-- the locations of a section, or the first two of its ranges -/
def interactionLocations (items : List (String × ResolvedCardinality)) :
    Except (String × String) (List InteractionLocation) :=
  match sectionRanges items with
  | [] => .ok ((List.range items.length).map (locationAt items.length none))
  | [(_, rangeIndex)] =>
    .ok ((List.range items.length).map (locationAt items.length (some rangeIndex)))
  | (firstHandle, _) :: (handle, _) :: _ => .error (firstHandle, handle)

def planInteractionLocations (actorName entryName section_ : String)
    (items : List (String × ResolvedCardinality)) : Except String (List InteractionLocation) :=
  match interactionLocations items with
  | .ok locations => .ok locations
  | .error (firstHandle, handle) =>
    .error (s!"entry `{actorName}::{entryName}` `{section_}` supports at most one range, found " ++
      s!"`{firstHandle}` and `{handle}`")

/-! ## interactions -/

/-- a source-selected target or a compiler-known static actor domain -/
inductive ActorTarget where
  /-- a runtime actor-type value or an open observed binding -/
  | source (expression : String)
  /-- one fixed actor or an expanded actor-enum domain -/
  | static (actors : List StaticActorId)
  /-- an invalid fixed reference retained until source validation reports it -/
  | unresolvedStatic (names : List String)
deriving DecidableEq, Repr

namespace ActorTarget

/-- only the bound static actor identities -/
def staticActors : ActorTarget → List StaticActorId
  | source _ | unresolvedStatic _ => []
  | static actors => actors

/-- the sole static actor, if this target is a singleton domain -/
def singleStaticActor : ActorTarget → Option StaticActorId
  | static [actor] => some actor
  | _ => none

theorem mem_staticActors_of_single {target : ActorTarget} {actor : StaticActorId}
    (h : target.singleStaticActor = some actor) : actor ∈ target.staticActors := by
  unfold singleStaticActor at h
  split at h
  · rw [← Option.some_inj.mp h]
    exact List.mem_singleton_self _
  · cases h

end ActorTarget

/-- one normalized interaction with its target domain -/
structure EntryInteraction where
  handle : String
  target : ActorTarget
  cardinality : ResolvedCardinality
  location : InteractionLocation
deriving DecidableEq

/-- the ordered items of one side of a covenant group, at their planned locations -/
structure InteractionSection where
  items : List EntryInteraction
  planned : interactionLocations (items.map fun item => (item.handle, item.cardinality)) =
    .ok (items.map (·.location))

def InteractionSection.empty : InteractionSection := ⟨[], rfl⟩

structure ObserveDecl where
  name : String
deriving DecidableEq, Repr

structure SpawnDecl where
  name : String
  covenant : String
deriving DecidableEq, Repr

/-- the covenant instance described by an interaction group -/
inductive CovenantContext where
  /-- the covenant executing the entry -/
  | current
  /-- an existing covenant selected by an `observes` clause -/
  | existing (observe : ObserveDecl)
  /-- a new covenant created by a `spawns` clause -/
  | genesis (spawn : SpawnDecl)
deriving DecidableEq, Repr

/-- ordered interactions governed by one covenant id -/
structure CovenantGroup where
  covenant : CovenantContext
  inputs : InteractionSection
  outputs : InteractionSection

/-- an actor-enum value selecting a template within one state domain -/
structure TemplateSelector where
  name : String
  fixedIndex : Option Nat
  targets : List StaticActorId
deriving DecidableEq, Repr

/-- the normalized interactions and the body of one entry -/
structure EntryModel where
  name : String
  kind : EntryKind
  current : CovenantGroup
  /-- the existing groups in `observes` order, then the genesis groups in `spawns` order -/
  foreign : List CovenantGroup
  /-- the selectors by name -/
  templateSelectors : List TemplateSelector
  body : List AuthoredEntryStatement
  analysis : RouteAnalysis
  analyzed : analyzeAuthoredEntryRoutes body = .ok analysis
  /-- a delegate has no `emits` clause -/
  delegateEmits : kind = .delegate → current.outputs.items = []

namespace EntryModel

/-- all covenant groups in current, existing, then genesis order -/
def groups (entry : EntryModel) : List CovenantGroup := entry.current :: entry.foreign

/-- the current-covenant successors of all paths -/
def routes (entry : EntryModel) : List EntryRoute := entry.analysis.routes

def existingGroups (entry : EntryModel) : List (ObserveDecl × CovenantGroup) :=
  entry.foreign.filterMap fun group => match group.covenant with
    | .existing observe => some (observe, group)
    | .current | .genesis _ => none

def genesisGroups (entry : EntryModel) : List (SpawnDecl × CovenantGroup) :=
  entry.foreign.filterMap fun group => match group.covenant with
    | .genesis spawn => some (spawn, group)
    | .current | .existing _ => none

end EntryModel

structure ActorModel where
  name : DeclId
  state : DeclId
  entries : List EntryModel

/-- the selected app: its actors have distinct names, which are source identifiers -/
structure App where
  name : String
  actors : List ActorModel
  distinct : (actors.map (·.name)).Nodup
  identifiers : ∀ actor ∈ actors, isIdentifier actor.name = true

namespace App

/-- the actor's model, if the app selects it -/
def actor? (app : App) (id : DeclId) : Option ActorModel :=
  app.actors.find? fun actor => actor.name == id

/-- whether `target` is the source actor in a singleton app -/
def isSingletonActorSelfTarget (app : App) (sourceActor target : DeclId) : Bool :=
  decide (app.actors.map (·.name) = [sourceActor]) && decide (sourceActor = target)

theorem actor?_eq_some {app : App} {id : DeclId} {actor : ActorModel} :
    app.actor? id = some actor ↔ actor ∈ app.actors ∧ actor.name = id := by
  unfold actor?
  constructor
  · intro h
    have hname := List.find?_some (p := fun other : ActorModel => other.name == id) h
    exact ⟨List.mem_of_find?_eq_some h, eq_of_beq hname⟩
  · intro ⟨hmem, hname⟩
    obtain ⟨pre, post, hsplit⟩ := List.append_of_mem hmem
    have hd := app.distinct
    rw [hsplit, List.map_append, List.map_cons] at hd
    rw [hsplit, List.find?_append, List.find?_eq_none.mpr, Option.none_or,
      List.find?_cons_of_pos (by rw [hname, beq_self_eq_true])]
    intro other hother heq
    have hdis := List.nodup_append.mp hd
    exact hdis.2.2 other.name (List.mem_map_of_mem hother) actor.name List.mem_cons_self
      ((eq_of_beq heq).trans hname.symm)

theorem actor?_isSome {app : App} {id : DeclId} :
    (app.actor? id).isSome = true ↔ id ∈ app.actors.map (·.name) := by
  rw [Option.isSome_iff_exists]
  constructor
  · intro ⟨actor, h⟩
    obtain ⟨hmem, hname⟩ := actor?_eq_some.mp h
    exact hname ▸ List.mem_map_of_mem hmem
  · intro h
    obtain ⟨actor, hmem, hname⟩ := List.mem_map.mp h
    exact ⟨actor, actor?_eq_some.mpr ⟨hmem, hname⟩⟩

end App
end Argent.Model
