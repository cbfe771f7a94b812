import Argent.Routing.Commitment

/-!
# Route plans

`routing/plan.rs`: from route domains and selector requirements to route families and their shared
commitment plan.

* `validateSelectorRequirements`   each requirement on its own domain;
* `selectorPrefixForComponent`     the table prefix that the requirements of a component agree on;
* `componentFamily`, `planComponent`   the cohort and the family of one component;
* `routePlan`              all domains in order, then `commitment_plan`.
-/

set_option linter.unusedSectionVars false

namespace Argent.Routing
variable {Domain Actor : Type} [LinearOrder Domain] [LinearOrder Actor]

/-- one planned route family with its component metadata and canonical table order -/
structure FamilyPlan (Domain Actor : Type) where
  domain : Domain
  rep : Actor
  members : List Actor
  gates : List Actor
  table : List Actor

/-- one compiler requirement for an indexed route table -/
structure SelectorRequirement (Domain Actor : Type) where
  domain : Domain
  source : Actor
  variants : List Actor

/-- the inferred route families and their shared commitment plan -/
structure RoutePlan (Domain Actor : Type) [LinearOrder Actor] where
  families : List (FamilyPlan Domain Actor)
  commitments : CommitmentPlan Actor

/-- invalid compiler input or commitment constraints -/
inductive RoutePlanError (Domain Actor : Type) where
  | constraint (error : ConstraintError Actor)
  | unknownSelectorDomain (selectorIndex : Nat) (domain : Domain)
  | selectorSourceOutsideDomain (selectorIndex : Nat) (domain : Domain) (sourceActor : Actor)
  | selectorTooSmall (selectorIndex : Nat)
  | duplicateSelectorVariant (selectorIndex : Nat) (actor : Actor)
  | selectorVariantOutsideDomain (selectorIndex : Nat) (domain : Domain) (actor : Actor)
  | selectorVariantOutsideComponent (selectorIndex : Nat) (domain : Domain)
      (sourceActor actor : Actor)
  | conflictingSelectors (selectorIndex firstSelectorIndex : Nat) (domain : Domain)
      (sourceActor : Actor)

def RoutePlanError.message [ToString Domain] [ToString Actor] : RoutePlanError Domain Actor → String
  | constraint error => error.message
  | unknownSelectorDomain i domain =>
    s!"selector requirement {i} references unknown domain `{domain}`"
  | selectorSourceOutsideDomain i domain source =>
    s!"selector requirement {i} source `{source}` does not belong to domain `{domain}`"
  | selectorTooSmall i => s!"selector requirement {i} must contain at least two variants"
  | duplicateSelectorVariant i actor => s!"selector requirement {i} repeats variant `{actor}`"
  | selectorVariantOutsideDomain i domain actor =>
    s!"selector requirement {i} variant `{actor}` does not belong to domain `{domain}`"
  | selectorVariantOutsideComponent i domain source actor =>
    s!"selector requirement {i} variant `{actor}` is outside the `{domain}` component containing " ++
      s!"source `{source}`"
  | conflictingSelectors i first domain source =>
    s!"selector requirement {i} conflicts with requirement {first} in the `{domain}` component " ++
      s!"containing `{source}`"

/-! ## selector requirements -/

/-- the variants of one requirement; `seen` are those already visited -/
def validateVariants (selectorIndex : Nat) (domain : Domain) (domainActors : BTreeSet Actor) :
    List Actor → BTreeSet Actor → Except (RoutePlanError Domain Actor) Unit
  | [], _ => .ok ()
  | actor :: variants, seen =>
    if actor ∈ seen then .error (.duplicateSelectorVariant selectorIndex actor)
    else if actor ∉ domainActors then .error (.selectorVariantOutsideDomain selectorIndex domain actor)
    else validateVariants selectorIndex domain domainActors variants (insert actor seen)

def validateSelector (domains : BTreeMap Domain (List Actor)) (selectorIndex : Nat)
    (selector : SelectorRequirement Domain Actor) : Except (RoutePlanError Domain Actor) Unit :=
  match domains.get selector.domain with
  | none => .error (.unknownSelectorDomain selectorIndex selector.domain)
  | some actorOrder =>
    let domainActors := BTreeSet.ofList actorOrder
    if selector.source ∉ domainActors then
      .error (.selectorSourceOutsideDomain selectorIndex selector.domain selector.source)
    else if selector.variants.length < 2 then .error (.selectorTooSmall selectorIndex)
    else validateVariants selectorIndex selector.domain domainActors selector.variants ∅

/-- the requirements from `selectorIndex` on -/
def validateSelectorRequirementsFrom (domains : BTreeMap Domain (List Actor)) :
    Nat → List (SelectorRequirement Domain Actor) → Except (RoutePlanError Domain Actor) Unit
  | _, [] => .ok ()
  | selectorIndex, selector :: selectors => do
    validateSelector domains selectorIndex selector
    validateSelectorRequirementsFrom domains (selectorIndex + 1) selectors

def validateSelectorRequirements (domains : BTreeMap Domain (List Actor))
    (selectors : List (SelectorRequirement Domain Actor)) :
    Except (RoutePlanError Domain Actor) Unit :=
  validateSelectorRequirementsFrom domains 0 selectors

/-- the requirements of one component against the first of them -/
def checkComponentSelectors (domain : Domain) (component : BTreeSet Actor) (firstIndex : Nat)
    (first : SelectorRequirement Domain Actor) :
    List (SelectorRequirement Domain Actor × Nat) → Except (RoutePlanError Domain Actor) Unit
  | [] => .ok ()
  | (selector, selectorIndex) :: rest =>
    match selector.variants.find? fun actor => decide (actor ∉ component) with
    | some actor =>
      .error (.selectorVariantOutsideComponent selectorIndex domain selector.source actor)
    | none =>
      if selector.variants ≠ first.variants then
        .error (.conflictingSelectors selectorIndex firstIndex domain selector.source)
      else checkComponentSelectors domain component firstIndex first rest

/-- the table prefix of a component with selector requirements -/
def selectorPrefixForComponent (domain : Domain) (component : BTreeSet Actor)
    (selectors : List (SelectorRequirement Domain Actor)) :
    Except (RoutePlanError Domain Actor) (Option (List Actor)) :=
  let componentSelectors := selectors.zipIdx.filter fun s =>
    decide (s.1.domain = domain) && decide (s.1.source ∈ component)
  match componentSelectors with
  | [] => .ok none
  | (first, firstIndex) :: _ => do
    checkComponentSelectors domain component firstIndex first componentSelectors
    return some first.variants

/-! ## components -/

def orderedMembers (actorOrder : List Actor) (members : BTreeSet Actor) : List Actor :=
  actorOrder.filter fun actor => decide (actor ∈ members)

/-- the families and constraints collected so far -/
structure PlanAccumulator (Domain Actor : Type) [LinearOrder Actor] where
  families : List (FamilyPlan Domain Actor)
  constraints : CommitmentConstraints Actor

/-- The route table of a component: its selector prefix and the other members that are no gates.
Without a selector, a table needs three members and two table entries. -/
def componentTable (selected : Option (List Actor)) (component : BTreeSet Actor)
    (members gates : List Actor) : Option (List Actor) :=
  match selected with
  | some table =>
    some (table ++ members.filter fun actor => decide (actor ∉ gates) && decide (actor ∉ table))
  | none =>
    if component.card < 3 then none
    else
      let table := members.filter fun actor => decide (actor ∉ gates)
      if table.length < 2 then none else some table

/-- The family of a component, when it has a table.  The source expects a representative, which
exists as a component is not empty. -/
def componentFamily (domain : Domain) (actorOrder : List Actor)
    (component : RouteGraph.Component Actor) (selected : Option (List Actor)) :
    Option (FamilyPlan Domain Actor) := do
  let members := orderedMembers actorOrder component.members
  let gates := orderedMembers actorOrder component.gates
  let rep ← gates.head?.or members.head?
  let table ← componentTable selected component.members members gates
  return { domain, rep, members, gates, table }

/-- one component: its cohort when it has two members, its family when it has a table -/
def planComponent (domain : Domain) (actorOrder : List Actor)
    (selectors : List (SelectorRequirement Domain Actor)) (acc : PlanAccumulator Domain Actor)
    (component : RouteGraph.Component Actor) :
    Except (RoutePlanError Domain Actor) (PlanAccumulator Domain Actor) := do
  let cohorts :=
    if 1 < component.members.card then acc.constraints.cohorts ++ [component.members]
    else acc.constraints.cohorts
  let selected ← selectorPrefixForComponent domain component.members selectors
  match componentFamily domain actorOrder component selected with
  | some family =>
    return {
      families := acc.families ++ [family]
      constraints := { families := acc.constraints.families ++ [family.table], cohorts } }
  | none => return { acc with constraints := { acc.constraints with cohorts } }

def planDomain (graph : RouteGraph Actor) (selectors : List (SelectorRequirement Domain Actor))
    (acc : PlanAccumulator Domain Actor) (entry : Domain × List Actor) :
    Except (RoutePlanError Domain Actor) (PlanAccumulator Domain Actor) :=
  (graph.components (BTreeSet.ofList entry.2)).foldlM (planComponent entry.1 entry.2 selectors) acc

/-- derive the route-family constraints of all domains and plan their commitments -/
def routePlan (graph : RouteGraph Actor) (domains : BTreeMap Domain (List Actor))
    (selectors : List (SelectorRequirement Domain Actor)) :
    Except (RoutePlanError Domain Actor) (RoutePlan Domain Actor) := do
  validateSelectorRequirements domains selectors
  let acc ← domains.entries.foldlM (planDomain graph selectors) ⟨[], ⟨[], []⟩⟩
  match commitmentPlan graph acc.constraints with
  | .error e => .error (.constraint e)
  | .ok commitments => return { families := acc.families, commitments }

end Argent.Routing
