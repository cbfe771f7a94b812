import Argent.Routing.Forest
import Argent.Routing.Graph

/-!
# Commitment planning

`commitment_plan` of `routing/commitment.rs`: families and cohorts are validated, the forest is
built, and every actor receives the cut of its needs with the templates it uses directly exposed.

* `validateFamilies`, `validateCohorts`   membership checks and their errors;
* `buildCommitmentForest`     one branch per family, one leaf per other actor;
* `cutForNeeds`, `exposeActors`   needs as packed families, then the families that are opened;
* `commitmentPlan`            the forest with the cut of every actor;
* `CommitmentPlan.cutNodes`, `CommitmentPlan.cutTransition`   the queries of a plan.

A lookup that the source indexes (`map[key]`, `list[i]`) falls back to a default here; `PlanSound`
shows that every such key is present.
-/

set_option linter.unusedSectionVars false

namespace Argent.Routing
variable {Actor : Type*} [LinearOrder Actor]

/-- ordered actor groups represented as branches in the commitment forest -/
abbrev Families (Actor : Type*) := List (List Actor)

/-- actor groups that share one cut and appear directly in that cut -/
abbrev Cohorts (Actor : Type*) [LinearOrder Actor] := List (BTreeSet Actor)

structure CommitmentConstraints (Actor : Type*) [LinearOrder Actor] where
  families : Families Actor
  cohorts : Cohorts Actor

/-- invalid input supplied to commitment planning -/
inductive ConstraintError (Actor : Type*) where
  | emptyFamily (familyIndex : Nat)
  | unknownFamilyActor (familyIndex : Nat) (actor : Actor)
  | duplicateFamilyActor (familyIndex : Nat) (actor : Actor)
  | overlappingFamilyActor (actor : Actor)
  | emptyCohort (cohortIndex : Nat)
  | unknownCohortActor (cohortIndex : Nat) (actor : Actor)
  | overlappingCohortActor (actor : Actor)
deriving DecidableEq

def ConstraintError.message [ToString Actor] : ConstraintError Actor → String
  | emptyFamily familyIndex => s!"family {familyIndex} is empty"
  | unknownFamilyActor familyIndex actor =>
    s!"family {familyIndex} contains unknown actor `{actor}`"
  | duplicateFamilyActor familyIndex actor => s!"family {familyIndex} repeats actor `{actor}`"
  | overlappingFamilyActor actor => s!"actor `{actor}` belongs to more than one family"
  | emptyCohort cohortIndex => s!"cohort {cohortIndex} is empty"
  | unknownCohortActor cohortIndex actor =>
    s!"cohort {cohortIndex} contains unknown actor `{actor}`"
  | overlappingCohortActor actor => s!"actor `{actor}` belongs to more than one cohort"

/-! ## validation -/

section
variable (g : RouteGraph Actor)

/-- the members of one family; `members` are those seen so far -/
def validateFamily (familyIndex : Nat) :
    List Actor → BTreeSet Actor → BTreeMap Actor Nat →
      Except (ConstraintError Actor) (BTreeMap Actor Nat)
  | [], _, familyByActor => .ok familyByActor
  | actor :: family, members, familyByActor =>
    if actor ∉ g.actors then .error (.unknownFamilyActor familyIndex actor)
    else if actor ∈ members then .error (.duplicateFamilyActor familyIndex actor)
    else if familyByActor.contains actor then .error (.overlappingFamilyActor actor)
    else
      validateFamily familyIndex family (insert actor members)
        (familyByActor.insert actor familyIndex)

/-- the families from `familyIndex` on -/
def validateFamiliesFrom :
    Nat → Families Actor → BTreeMap Actor Nat → Except (ConstraintError Actor) (BTreeMap Actor Nat)
  | _, [], familyByActor => .ok familyByActor
  | familyIndex, family :: families, familyByActor =>
    if family.isEmpty then .error (.emptyFamily familyIndex)
    else
      match validateFamily g familyIndex family ∅ familyByActor with
      | .error e => .error e
      | .ok familyByActor => validateFamiliesFrom (familyIndex + 1) families familyByActor

/-- validate family membership and return each family actor's family index -/
def validateFamilies (families : Families Actor) :
    Except (ConstraintError Actor) (BTreeMap Actor Nat) := validateFamiliesFrom g 0 families ∅

/-- the members of one cohort in actor order -/
def validateCohort (cohortIndex : Nat) :
    List Actor → BTreeMap Actor Nat → Except (ConstraintError Actor) (BTreeMap Actor Nat)
  | [], cohortByActor => .ok cohortByActor
  | actor :: cohort, cohortByActor =>
    if actor ∉ g.actors then .error (.unknownCohortActor cohortIndex actor)
    else if cohortByActor.contains actor then .error (.overlappingCohortActor actor)
    else validateCohort cohortIndex cohort (cohortByActor.insert actor cohortIndex)

def validateCohortsFrom :
    Nat → Cohorts Actor → BTreeMap Actor Nat → Except (ConstraintError Actor) (BTreeMap Actor Nat)
  | _, [], cohortByActor => .ok cohortByActor
  | cohortIndex, cohort :: cohorts, cohortByActor =>
    if cohort.toList.isEmpty then .error (.emptyCohort cohortIndex)
    else
      match validateCohort g cohortIndex cohort.toList cohortByActor with
      | .error e => .error e
      | .ok cohortByActor => validateCohortsFrom (cohortIndex + 1) cohorts cohortByActor

/-- validate cohort membership and return each cohort actor's cohort index -/
def validateCohorts (cohorts : Cohorts Actor) :
    Except (ConstraintError Actor) (BTreeMap Actor Nat) := validateCohortsFrom g 0 cohorts ∅

end

/-! ## the forest -/

/-- direct paths recorded while constructing a forest -/
structure CommitmentLocations (Actor : Type*) [LinearOrder Actor] where
  /-- the leaf of every actor, inside a family branch or not -/
  actorPaths : BTreeMap Actor NodePath
  /-- the branch of every family -/
  familyPaths : BTreeMap Nat NodePath

instance : Inhabited NodePath := ⟨NodePath.root 0⟩

namespace CommitmentLocations

/-- `actor_paths[actor]` -/
def actorPath (locations : CommitmentLocations Actor) (actor : Actor) : NodePath :=
  (locations.actorPaths.get actor).getD default

/-- `family_paths[family]` -/
def familyPath (locations : CommitmentLocations Actor) (family : Nat) : NodePath :=
  (locations.familyPaths.get family).getD default

end CommitmentLocations

/-- the forest under construction -/
structure ForestBuild (Actor : Type*) [LinearOrder Actor] where
  roots : List (CommitmentNode Actor)
  locations : CommitmentLocations Actor
  emittedFamilies : BTreeSet Nat

/-- record the children of a family branch from index `childIndex` on -/
def insertChildren (familyPath : NodePath) :
    Nat → List Actor → BTreeMap Actor NodePath → BTreeMap Actor NodePath
  | _, [], actorPaths => actorPaths
  | childIndex, actor :: family, actorPaths =>
    insertChildren familyPath (childIndex + 1) family
      (actorPaths.insert actor (familyPath.child childIndex))

/-- one actor of the loop: a standalone leaf, the branch of a new family, or nothing -/
def forestStep (families : Families Actor) (familyByActor : BTreeMap Actor Nat)
    (build : ForestBuild Actor) (actor : Actor) : ForestBuild Actor :=
  match familyByActor.get actor with
  | none =>
    { build with
      locations.actorPaths :=
        build.locations.actorPaths.insert actor (NodePath.root build.roots.length)
      roots := build.roots ++ [.leaf actor] }
  | some familyIndex =>
    if familyIndex ∈ build.emittedFamilies then build
    else
      let familyPath := NodePath.root build.roots.length
      let family := families[familyIndex]?.getD []
      { roots := build.roots ++ [.branch (family.map .leaf)]
        locations :=
          { actorPaths := insertChildren familyPath 0 family build.locations.actorPaths
            familyPaths := build.locations.familyPaths.insert familyIndex familyPath }
        emittedFamilies := insert familyIndex build.emittedFamilies }

def buildCommitmentForest (g : RouteGraph Actor) (families : Families Actor)
    (familyByActor : BTreeMap Actor Nat) : CommitmentForest Actor × CommitmentLocations Actor :=
  let build := g.actors.toList.foldl (forestStep families familyByActor) ⟨[], ⟨∅, ∅⟩, ∅⟩
  (⟨build.roots⟩, build.locations)

/-- a deterministic forest with one branch per family and one root per other actor -/
def commitmentForest (g : RouteGraph Actor) (families : Families Actor) :
    Except (ConstraintError Actor) (CommitmentForest Actor) := do
  let familyByActor ← validateFamilies g families
  return (buildCommitmentForest g families familyByActor).1

/-! ## cuts -/

/-- translate actor needs into leaf paths and packed family paths -/
def cutForNeeds (actorNeeds : BTreeSet Actor) (familyByActor : BTreeMap Actor Nat)
    (locations : CommitmentLocations Actor) : Cut :=
  BTreeSet.ofList (actorNeeds.toList.map fun actor =>
    match familyByActor.get actor with
    | none => locations.actorPath actor
    | some family => locations.familyPath family)

/-- the cut under exposure and the families opened in it so far -/
structure Exposure where
  cut : Cut
  openedFamilies : BTreeSet Nat

/-- expose one actor: its leaf, or all leaves of its family in place of the branch -/
def exposeStep (families : Families Actor) (familyByActor : BTreeMap Actor Nat)
    (locations : CommitmentLocations Actor) (exposure : Exposure) (actor : Actor) : Exposure :=
  match familyByActor.get actor with
  | none => { exposure with cut := insert (locations.actorPath actor) exposure.cut }
  | some familyIndex =>
    if familyIndex ∈ exposure.openedFamilies then exposure
    else
      { openedFamilies := insert familyIndex exposure.openedFamilies
        cut := (exposure.cut.erase (locations.familyPath familyIndex)).extend
          ((families[familyIndex]?.getD []).map locations.actorPath) }

/-- add actors directly to a cut, opening their family branches when needed -/
def exposeActors (cut : Cut) (actors : BTreeSet Actor) (families : Families Actor)
    (familyByActor : BTreeMap Actor Nat) (locations : CommitmentLocations Actor) : Cut :=
  (actors.toList.foldl (exposeStep families familyByActor locations) ⟨cut, ∅⟩).cut

/-! ## the plan -/

/-- a commitment forest together with the cut carried by each actor -/
structure CommitmentPlan (Actor : Type*) [LinearOrder Actor] where
  forest : CommitmentForest Actor
  cuts : BTreeMap Actor Cut

/-- the clone of the graph in which every cohort is a clique -/
def needsGraph (g : RouteGraph Actor) (cohorts : Cohorts Actor) : RouteGraph Actor :=
  cohorts.foldl RouteGraph.addEmitClique g

section
variable (g : RouteGraph Actor) (constraints : CommitmentConstraints Actor)
  (familyByActor : BTreeMap Actor Nat) (locations : CommitmentLocations Actor)
  (actorNeeds : BTreeMap Actor (BTreeSet Actor))

/-- an actor outside cohorts keeps families packed, except for templates it consumes directly -/
def standaloneCut (actor : Actor) : Cut :=
  let cut := cutForNeeds (actorNeeds.getD actor) familyByActor locations
  match g.consumes.get actor with
  | none => cut
  | some consumes => exposeActors cut consumes constraints.families familyByActor locations

/-- the members of a cohort and their direct consumes -/
def exposedActors (cohort : BTreeSet Actor) : BTreeSet Actor :=
  cohort.extend (cohort.toList.flatMap fun member => (g.directConsumes member).toList)

/-- the shared cut of a cohort, from the needs of its first member -/
def cohortCut (cohort : BTreeSet Actor) : Cut :=
  let cohortNeeds :=
    match cohort.toList.head? with
    | none => ∅
    | some first => actorNeeds.getD first
  exposeActors (cutForNeeds cohortNeeds familyByActor locations) (exposedActors g cohort)
    constraints.families familyByActor locations

/-- publish the cut of one actor, or of its whole cohort -/
def planStep (cohortByActor : BTreeMap Actor Nat) (cuts : BTreeMap Actor Cut) (actor : Actor) :
    BTreeMap Actor Cut :=
  if cuts.contains actor then cuts
  else
    match cohortByActor.get actor with
    | none =>
      cuts.insert actor (standaloneCut g constraints familyByActor locations actorNeeds actor)
    | some cohortIndex =>
      let cohort := constraints.cohorts[cohortIndex]?.getD ∅
      let cut := cohortCut g constraints familyByActor locations actorNeeds cohort
      cohort.toList.foldl (fun cuts member => cuts.insert member cut) cuts

end

/-- the commitment forest and the canonical partial cut carried by every actor -/
def commitmentPlan (g : RouteGraph Actor) (constraints : CommitmentConstraints Actor) :
    Except (ConstraintError Actor) (CommitmentPlan Actor) := do
  let familyByActor ← validateFamilies g constraints.families
  let cohortByActor ← validateCohorts g constraints.cohorts
  let (forest, locations) := buildCommitmentForest g constraints.families familyByActor
  let actorNeeds := (needsGraph g constraints.cohorts).needs
  let cuts := g.actors.toList.foldl
    (planStep g constraints familyByActor locations actorNeeds cohortByActor) ∅
  return { forest, cuts }

/-- a requested cut transition that is absent or not derivable -/
inductive CutTransitionError (Actor : Type*) where
  | unknownSourceActor (actor : Actor)
  | unknownTargetActor (actor : Actor)
  | incompatibleCuts (sourceActor targetActor : Actor)
deriving DecidableEq

def CutTransitionError.message [ToString Actor] : CutTransitionError Actor → String
  | unknownSourceActor actor => s!"cut transition references unknown source actor `{actor}`"
  | unknownTargetActor actor => s!"cut transition references unknown target actor `{actor}`"
  | incompatibleCuts sourceActor targetActor =>
    s!"cut for target actor `{targetActor}` cannot be derived from source actor `{sourceActor}`"

namespace CommitmentPlan

/-- the selected nodes of an actor's cut in path order; no planned path misses its node -/
def cutNodes (plan : CommitmentPlan Actor) (actor : Actor) : Option (List (CommitmentNode Actor)) :=
  match plan.cuts.get actor with
  | none => none
  | some cut => some (cut.toList.filterMap plan.forest.node)

/-- the operations that derive the target actor's cut from the source actor's -/
def cutTransition (plan : CommitmentPlan Actor) (sourceActor targetActor : Actor) :
    Except (CutTransitionError Actor) (CutTransition plan.forest) :=
  match plan.cuts.get sourceActor with
  | none => .error (.unknownSourceActor sourceActor)
  | some source =>
    match plan.cuts.get targetActor with
    | none => .error (.unknownTargetActor targetActor)
    | some target =>
      match plan.forest.transition source target with
      | none => .error (.incompatibleCuts sourceActor targetActor)
      | some transition => .ok transition

end CommitmentPlan
end Argent.Routing
