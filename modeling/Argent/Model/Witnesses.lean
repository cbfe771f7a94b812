import Argent.Model.Inputs
import Argent.Model.Layout

/-!
# Template witnesses

The template uses of an entry (`compiler/model/entry.rs`, `compiler/model/mod.rs`) and the part of
`WitnessPlan::new` (`compiler/model/witnesses.rs`) that gives every used template its form and its
source.  Sets of actors are lists of which only the membership matters.

* `entryTemplateUses`      the actors whose templates an entry reads or writes;
* `openedFamilies`         the route tables that the writes of an entry open;
* `templateWitnesses`      form and source of every used template.
-/

set_option linter.unusedSectionVars false

namespace Argent.Model
open Argent.Routing

/-! ## uses -/

/-- actor template capabilities used while lowering one entry -/
structure ActorTemplateUses where
  reads : List StaticActorId
  writes : List StaticActorId
deriving DecidableEq, Repr

/-- the static actors that the items of a section name -/
def sectionActors (section_ : InteractionSection) : List StaticActorId :=
  section_.items.flatMap (·.target.staticActors)

section
variable (app : App) (source : DeclId) (entry : EntryModel)

/-- a read of the actor needs its template -/
def readsTemplate : StaticActorId → Bool
  | .inApp id => (app.actor? id).isSome && !(app.actors.length == 1 && id == source)
  | .linked _ => false

/-- a write of the actor needs its template -/
def writesTemplate : StaticActorId → Bool
  | .inApp id => (app.actor? id).isSome && id != source
  | .linked _ => false

def isLinked : StaticActorId → Bool
  | .inApp _ => false
  | .linked _ => true

/-- the fixed actors of the constructed routes; selector routes use selector witnesses -/
def routeFixedActors : List StaticActorId :=
  entry.routes.filterMap fun route => match route.successor with
    | .constructed (.fixed id) _ _ => some (.inApp id)
    | .constructed _ _ _ | .exactSelf => none

/-- the uses of the selected app's templates -/
def actorTemplateUses : ActorTemplateUses where
  reads := (entry.groups.flatMap fun group => sectionActors group.inputs).filter
    (readsTemplate app source)
  writes := (routeFixedActors entry).filter (writesTemplate app source) ++
    (entry.foreign.flatMap fun group => sectionActors group.outputs).filter
      (writesTemplate app source)

/-- the template uses of one entry; only foreign groups reference linked actors -/
def entryTemplateUses : ActorTemplateUses where
  reads := (actorTemplateUses app source entry).reads ++
    (entry.foreign.flatMap fun group => sectionActors group.inputs).filter isLinked
  writes := (actorTemplateUses app source entry).writes ++
    (entry.foreign.flatMap fun group => sectionActors group.outputs).filter isLinked

end

/-! ## forms -/

inductive TemplateWitnessForm where
  /-- the entry passes the template's prefix and suffix -/
  | bytes
  /-- the entry passes their lengths -/
  | len
deriving DecidableEq, Repr

/-- contract-local spelling of a fixed actor -/
def staticActorReference : StaticActorId → String
  | .inApp id => id
  | .linked id => id.app ++ "::" ++ id.actor

/-- the actors of the consumed inputs that may be absent -/
def optionalInputActors (entry : EntryModel) : List StaticActorId :=
  (entry.current.inputs.items.filter fun interaction =>
    interaction.cardinality.rangeBounds.any fun bounds => decide (bounds.minimum = 0)).flatMap
    (·.target.staticActors)

/-- the actors of the uses in plan order: the app's, then the linked ones -/
def requiredTemplates (app : App) (uses : ActorTemplateUses) : List StaticActorId :=
  let linked := (uses.reads ++ uses.writes).filterMap fun target => match target with
    | .inApp _ => none
    | .linked id => some (toLex (id.app, id.actor))
  ((app.actors.map fun actor => StaticActorId.inApp actor.name).filter fun id =>
      decide (id ∈ uses.reads ++ uses.writes)) ++
    (BTreeSet.ofList linked).toList.map fun id => .linked ⟨(ofLex id).1, (ofLex id).2⟩

/-- A template that is only written is passed whole, and so is one whose only read may be absent. -/
def templateForm (source : DeclId) (entry : EntryModel) (inputs : EntryInputPlan)
    (uses : ActorTemplateUses) (id : StaticActorId) : TemplateWitnessForm :=
  if id ∈ uses.writes ∧ id ∉ uses.reads then .bytes
  else if id ≠ .inApp source ∧ id ∈ optionalInputActors entry ∧ id ∈ uses.writes ∧
      inputs.firstAuthenticatedTemplate id = none then .bytes
  else .len

/-! ## sources -/

inductive TemplateWitnessSource where
  /-- a field of the active state, an imported constant, or the actor itself -/
  | field
  /-- a slice of a route table -/
  | familyTable (family : String) (offset : Nat)
deriving DecidableEq, Repr

structure TemplateWitnessSpec where
  id : StaticActorId
  actor : String
  form : TemplateWitnessForm
  source : TemplateWitnessSource
deriving DecidableEq, Repr

def routeTransition (plan : CompilerRoutePlan) (source target : DeclId) :
    Option CompilerRouteTransition :=
  (plan.transitions.find? fun entry => decide (entry.1 = (source, target))).map Prod.snd

/-- the families that one write opens -/
def openedBy (plan : CompilerRoutePlan) (source : DeclId) :
    StaticActorId → Except String (List RouteFamily)
  | .linked _ => .ok []
  | .inApp target =>
    if target = source then .ok []
    else
      match routeTransition plan source target with
      | none =>
        .error (s!"entry model has no route transition from `{source}` to in-app target " ++
          s!"`{target}`")
      | some transition => transition.familiesToOpen.mapM fun id =>
        match routeFamily plan id with
        | none => .error s!"route transition references unknown family `{id}`"
        | some family => .ok family

/-- the route tables that the writes of the entry open -/
def openedFamilies (plan : CompilerRoutePlan) (source : DeclId) (uses : ActorTemplateUses) :
    Except String (List RouteFamily) := do
  let opened ← uses.writes.mapM (openedBy plan source)
  return opened.flatten

/-- where the template of an actor comes from: a table that the entry opens or that belongs to the
state of the source actor, else a field -/
def templateSource (plan : CompilerRoutePlan) (sourceState : DeclId) (opened : List RouteFamily) :
    StaticActorId → TemplateWitnessSource
  | .linked _ => .field
  | .inApp target =>
    match routeFamilyForActor plan target with
    | none => .field
    | some family =>
      if family.id ∉ opened.map (·.id) ∧
          (family.state ≠ sourceState ∨ target ∉ family.tableActors) then .field
      else
        match family.tableActors.idxOf? target with
        | none => .field
        | some index => .familyTable family.id (index * 32)

def templateWitnesses (app : App) (plan : CompilerRoutePlan) (actor : ActorModel)
    (entry : EntryModel) : Except String (List TemplateWitnessSpec) := do
  let inputs ← entryInputPlan app actor entry
  let uses := entryTemplateUses app actor.name entry
  let opened ← openedFamilies plan actor.name uses
  return (requiredTemplates app uses).map fun id => {
    id
    actor := staticActorReference id
    form := templateForm actor.name entry inputs uses id
    source := templateSource plan actor.state opened id }

/-- the witness of a used template -/
def templateWitness? (witnesses : List TemplateWitnessSpec) (target : StaticActorId) :
    Option TemplateWitnessSpec :=
  witnesses.find? fun spec => decide (spec.id = target)

/-! ## lookups -/

/-- only a singleton app's own actor is read without its template -/
theorem readsTemplate_of_not_self {app : App} {source id : DeclId}
    (hid : (app.actor? id).isSome = true)
    (hself : ¬ app.isSingletonActorSelfTarget source id = true) :
    readsTemplate app source (.inApp id) = true := by
  unfold readsTemplate
  dsimp only
  rw [hid, Bool.true_and, Bool.not_eq_true', Bool.eq_false_iff]
  intro hone
  obtain ⟨hlen, heq⟩ := Bool.and_eq_true_iff.mp hone
  refine hself (Bool.and_eq_true_iff.mpr ⟨decide_eq_true ?_, decide_eq_true (eq_of_beq heq).symm⟩)
  have hmem := App.actor?_isSome.mp hid
  rw [eq_of_beq heq] at hmem
  obtain ⟨actor, hactor⟩ := List.length_eq_one_iff.mp (eq_of_beq hlen)
  rw [hactor, List.map_singleton] at hmem ⊢
  rw [List.mem_singleton.mp hmem]

theorem templateWitness?_actor {app : App} {plan : CompilerRoutePlan} {actor : ActorModel}
    {entry : EntryModel} {witnesses : List TemplateWitnessSpec} {target : StaticActorId}
    {witness : TemplateWitnessSpec} (h : templateWitnesses app plan actor entry = .ok witnesses)
    (hwitness : templateWitness? witnesses target = some witness) :
    witness.actor = staticActorReference target := by
  obtain ⟨_, _, h⟩ := Fallible.bind_eq_ok.mp h
  obtain ⟨_, _, h⟩ := Fallible.bind_eq_ok.mp h
  have hid := List.find?_some (p := fun spec : TemplateWitnessSpec => decide (spec.id = target))
    hwitness
  have hmem := List.mem_of_find?_eq_some hwitness
  rw [← Fallible.pure_eq_ok.mp h] at hmem
  obtain ⟨id, _, hspec⟩ := List.mem_map.mp hmem
  rw [← of_decide_eq_true hid, ← hspec]

end Argent.Model
