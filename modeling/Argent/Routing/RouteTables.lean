import Argent.Routing.DeclarationOrder
import Argent.Routing.RoutePlanSound

/-!
# Route tables

What `route_plan` guarantees of the tables that it builds.

* `DomainsOf`            disjoint domains of distinct graph actors;
* `RouteTable`           a table and the component that it stands for;
* `SelectorTable`        the table that a selector indexes, opened in the cut of its users;
* `routePlan_tables`     **no constraint error**, and the tables of an accepted plan.
-/

set_option linter.unusedSectionVars false

namespace Argent.Routing
open Argent.Fallible RouteGraph
variable {Domain Actor : Type} [LinearOrder Domain] [LinearOrder Actor]

/-- disjoint domains of distinct graph actors -/
structure DomainsOf (g : RouteGraph Actor) (domains : BTreeMap Domain (List Actor)) : Prop where
  actors : ∀ d order, domains.get d = some order → ∀ a ∈ order, a ∈ g.actors
  nodup : ∀ d order, domains.get d = some order → order.Nodup
  disjoint : ∀ d d' order order', d ≠ d' → domains.get d = some order →
    domains.get d' = some order' → ∀ a ∈ order, a ∉ order'

/-! ## errors of the compiler input -/

section
variable {e : ConstraintError Actor}

theorem validateVariants_not_constraint {i : Nat} {domain : Domain} {domainActors : BTreeSet Actor}
    (variants : List Actor) (seen : BTreeSet Actor) :
    validateVariants i domain domainActors variants seen ≠ .error (.constraint e) := by
  induction variants generalizing seen with
  | nil =>
    intro h
    cases h
  | cons a variants ih =>
    unfold validateVariants
    split_ifs
    · intro h
      cases h
    · exact ih (insert a seen)
    · intro h
      cases h

theorem validateSelectors_not_constraint {domains : BTreeMap Domain (List Actor)} (i : Nat)
    (selectors : List (SelectorRequirement Domain Actor)) :
    validateSelectorRequirementsFrom domains i selectors ≠ .error (.constraint e) := by
  induction selectors generalizing i with
  | nil =>
    intro h
    cases h
  | cons s selectors ih =>
    unfold validateSelectorRequirementsFrom
    intro h
    obtain h | ⟨_, _, h⟩ := bind_eq_error.mp h
    · unfold validateSelector at h
      cases hget : domains.get s.domain with
      | none => rw [hget] at h; cases h
      | some order =>
        rw [hget] at h
        dsimp only at h
        split_ifs at h
        · cases h
        · exact validateVariants_not_constraint _ _ h
        · cases h
    · exact ih (i + 1) h

theorem checkComponentSelectors_not_constraint {domain : Domain} {component : BTreeSet Actor}
    {firstIndex : Nat} {first : SelectorRequirement Domain Actor}
    (l : List (SelectorRequirement Domain Actor × Nat)) :
    checkComponentSelectors domain component firstIndex first l ≠ .error (.constraint e) := by
  induction l with
  | nil =>
    intro h
    cases h
  | cons t l ih =>
    obtain ⟨selector, i⟩ := t
    unfold checkComponentSelectors
    cases selector.variants.find? fun actor => decide (actor ∉ component) with
    | some actor =>
      intro h
      cases h
    | none =>
      dsimp only
      split_ifs
      · intro h
        cases h
      · exact ih

theorem selectorPrefixForComponent_not_constraint {domain : Domain} {component : BTreeSet Actor}
    {selectors : List (SelectorRequirement Domain Actor)} :
    selectorPrefixForComponent domain component selectors ≠ .error (.constraint e) := by
  unfold selectorPrefixForComponent
  dsimp only
  generalize selectors.zipIdx.filter _ = l
  cases l with
  | nil =>
    intro h
    cases h
  | cons t l =>
    intro h
    obtain h | ⟨_, _, h⟩ := bind_eq_error.mp h
    · exact checkComponentSelectors_not_constraint _ h
    · cases h

theorem planDomain_not_constraint {g : RouteGraph Actor}
    {selectors : List (SelectorRequirement Domain Actor)} {acc : PlanAccumulator Domain Actor}
    {entry : Domain × List Actor} :
    planDomain g selectors acc entry ≠ .error (.constraint e) := by
  intro h
  obtain ⟨acc, c, _, h⟩ := foldlM_error h
  unfold planComponent at h
  obtain h | ⟨selected, _, h⟩ := bind_eq_error.mp h
  · exact selectorPrefixForComponent_not_constraint h
  · cases hf : componentFamily entry.1 entry.2 c selected with
    | none => rw [hf] at h; cases h
    | some family => rw [hf] at h; cases h

end

/-! ## sites -/

section
variable {g : RouteGraph Actor} {domains : BTreeMap Domain (List Actor)}

theorem site_order {p : Site Domain Actor} (hp : p ∈ allSites g domains) :
    domains.get p.domain = some p.order ∧ p.component ∈ g.components (BTreeSet.ofList p.order) := by
  obtain ⟨entry, he, hp⟩ := mem_allSites.mp hp
  obtain ⟨h1, h2, h3⟩ := mem_sitesOf.mp hp
  rw [h1, h2]
  exact ⟨BTreeMap.mem_entries.mp he, h3⟩

theorem site_member {p : Site Domain Actor} (hp : p ∈ allSites g domains) {a : Actor}
    (ha : a ∈ p.component.members) : a ∈ p.order :=
  BTreeSet.mem_ofList.mp ((components_spec g _).subset (site_order hp).2 ha)

theorem BTreeMap.pairwise_entries {α β : Type} [LinearOrder α] (m : BTreeMap α β) :
    m.entries.Pairwise fun x y => x.1 ≠ y.1 := by
  unfold BTreeMap.entries
  refine List.Pairwise.filterMap _ ?_ m.keys.nodup
  intro a b hab x hx y hy
  obtain ⟨_, _, rfl⟩ := Option.map_eq_some_iff.mp hx
  obtain ⟨_, _, rfl⟩ := Option.map_eq_some_iff.mp hy
  exact hab

theorem allSites_disjoint (hd : DomainsOf g domains) :
    (allSites g domains).Pairwise fun p q =>
      ∀ a ∈ p.component.members, a ∉ q.component.members := by
  unfold allSites
  rw [List.pairwise_flatMap]
  constructor
  · intro entry he
    unfold sitesOf
    rw [List.pairwise_map, List.pairwise_iff_getElem]
    intro i j hi hj hlt a ha ha'
    have hij := (components_spec g (BTreeSet.ofList entry.2)).unique (List.getElem?_eq_getElem hi)
      (List.getElem?_eq_getElem hj) a ha ha'
    omega
  · refine (BTreeMap.pairwise_entries domains).imp_of_mem ?_
    intro entry entry' he he' hne p hp q hq a ha ha'
    have hp' := mem_allSites.mpr ⟨entry, he, hp⟩
    have hq' := mem_allSites.mpr ⟨entry', he', hq⟩
    obtain ⟨h1, h2, _⟩ := mem_sitesOf.mp hp
    obtain ⟨h1', h2', _⟩ := mem_sitesOf.mp hq
    exact hd.disjoint _ _ _ _ (h1 ▸ h1' ▸ hne) (site_order hp').1 (site_order hq').1 a
      (site_member hp' ha) (site_member hq' ha')

end

/-! ## tables -/

section
variable {order gates : List Actor} {c : Component Actor} {table : List Actor}
  {selected : Option (List Actor)}

/-- the other members that are no gates follow the selector prefix -/
theorem componentTable_some {variants : List Actor}
    (h : componentTable (some variants) c.members (orderedMembers order c.members)
      (orderedMembers order c.gates) = some table) :
    ∃ rest, table = variants ++ rest ∧ (order.Nodup → rest.Nodup) ∧
      ∀ a, a ∈ rest ↔ (a ∈ order ∧ a ∈ c.members) ∧ ¬ (a ∈ order ∧ a ∈ c.gates) ∧ a ∉ variants := by
  refine ⟨_, (Option.some.inj h).symm, fun hnd => (hnd.filter _).filter _, fun a => ?_⟩
  rw [List.mem_filter, mem_orderedMembers, Bool.and_eq_true, decide_eq_true_eq, decide_eq_true_eq,
    mem_orderedMembers]

theorem componentTable_none
    (h : componentTable none c.members (orderedMembers order c.members)
      (orderedMembers order c.gates) = some table) :
    2 ≤ table.length ∧ (order.Nodup → table.Nodup) ∧
      ∀ a, a ∈ table ↔ (a ∈ order ∧ a ∈ c.members) ∧ ¬ (a ∈ order ∧ a ∈ c.gates) := by
  unfold componentTable at h
  dsimp only at h
  split_ifs at h with h1 h2
  obtain rfl := Option.some.inj h
  refine ⟨not_lt.mp h2, fun hnd => (hnd.filter _).filter _, fun a => ?_⟩
  rw [List.mem_filter, mem_orderedMembers, decide_eq_true_eq, mem_orderedMembers]

end

section
variable {g : RouteGraph Actor} {domains : BTreeMap Domain (List Actor)}
  {selectors : List (SelectorRequirement Domain Actor)}

/-- the table of a family: two distinct members of its component, and all that are no gates -/
structure SiteTable (p : Site Domain Actor) (f : FamilyPlan Domain Actor) : Prop where
  domain : f.domain = p.domain
  members : ∀ a ∈ f.members, a ∈ p.component.members
  size : 2 ≤ f.table.length
  nodup : f.table.Nodup
  table : ∀ a ∈ f.table, a ∈ f.members
  complete : ∀ a ∈ p.component.members, a ∉ p.component.gates → a ∈ f.table

theorem siteFamily_table (hd : DomainsOf g domains) (hvalid : ∀ s ∈ selectors, SelectorValid domains s)
    {p : Site Domain Actor} (hp : p ∈ allSites g domains) {f : FamilyPlan Domain Actor}
    (hf : siteFamily selectors p = some f) : SiteTable p f := by
  have hof := siteFamily_familyOf hvalid hp hf
  have hnd := hd.nodup _ _ (site_order hp).1
  obtain ⟨selected, hsel, hf⟩ := siteFamily_eq_some hf
  unfold componentFamily at hf
  simp only [bind, Option.bind_eq_some_iff] at hf
  obtain ⟨rep, _, table, htable, hf⟩ := hf
  obtain rfl := Option.some.inj hf
  suffices h : 2 ≤ table.length ∧ table.Nodup ∧
      ∀ a ∈ p.component.members, a ∉ p.component.gates → a ∈ table from
    ⟨hof.domain, fun a ha => hof.mem_component ha, h.1, h.2.1, hof.table, h.2.2⟩
  cases selected with
  | some variants =>
    obtain ⟨s, hs, _, _, rfl⟩ := (selectorPrefixForComponent_ok hsel).2 variants rfl
    obtain ⟨rest, rfl, hrest, hmem⟩ := componentTable_some htable
    have hsize := (hvalid s hs).size
    refine ⟨?_, ?_, fun a ha hgate => ?_⟩
    · rw [List.length_append]
      omega
    · refine List.nodup_append.mpr ⟨(hvalid s hs).nodup, hrest hnd, fun a ha b hb hab => ?_⟩
      exact ((hmem b).mp hb).2.2 (hab ▸ ha)
    · by_cases hv : a ∈ s.variants
      · exact List.mem_append_left _ hv
      · refine List.mem_append_right _ ((hmem a).mpr ⟨⟨site_member hp ha, ha⟩, ?_, hv⟩)
        exact fun h => hgate h.2
  | none =>
    obtain ⟨hsize, hnodup, hmem⟩ := componentTable_none htable
    refine ⟨hsize, hnodup hnd, fun a ha hgate => (hmem a).mpr ⟨⟨site_member hp ha, ha⟩, ?_⟩⟩
    exact fun h => hgate h.2

/-- a selector is the prefix of the table of its component -/
theorem siteFamily_prefix {p : Site Domain Actor} (hp : p ∈ allSites g domains) {variants : List Actor}
    {a : Actor} (ha : a ∈ p.component.members)
    (hsel : selectorPrefixForComponent p.domain p.component.members selectors =
      .ok (some variants)) :
    ∃ f, siteFamily selectors p = some f ∧ variants <+: f.table := by
  have hmem : a ∈ orderedMembers p.order p.component.members :=
    mem_orderedMembers.mpr ⟨site_member hp ha, ha⟩
  obtain ⟨rep, hrep⟩ : ∃ rep, (orderedMembers p.order p.component.gates).head?.or
      (orderedMembers p.order p.component.members).head? = some rep := by
    cases hgates : (orderedMembers p.order p.component.gates).head? with
    | some rep => exact ⟨rep, rfl⟩
    | none =>
      cases hmembers : orderedMembers p.order p.component.members with
      | nil => rw [hmembers] at hmem; exact absurd hmem List.not_mem_nil
      | cons rep _ => exact ⟨rep, rfl⟩
  unfold siteFamily componentFamily
  rw [hsel]
  simp only [bind, Except.toOption, Option.bind_some, hrep, componentTable]
  exact ⟨_, rfl, List.prefix_append _ _⟩

/-! ## constraints -/

section
variable (hd : DomainsOf g domains) {constraints : CommitmentConstraints Actor}
  {families : List (FamilyPlan Domain Actor)}
  (hacc : Accumulated selectors (allSites g domains) ⟨families, constraints⟩)
  (hvalid : ∀ s ∈ selectors, SelectorValid domains s)
include hd hacc hvalid

theorem mem_families {f : FamilyPlan Domain Actor} :
    f ∈ families ↔ ∃ p ∈ allSites g domains, siteFamily selectors p = some f := by
  rw [show families = _ from hacc.families, List.mem_filterMap]

theorem families_disjoint :
    families.Pairwise fun f f' => ∀ a ∈ f.members, a ∉ f'.members := by
  rw [show families = _ from hacc.families]
  refine List.Pairwise.filterMap _ (R := fun p q => p ∈ allSites g domains ∧ q ∈ allSites g domains ∧
    ∀ a ∈ p.component.members, a ∉ q.component.members) ?_ ?_
  · intro p q ⟨hp, hq, hdisj⟩ f hf f' hf' a ha ha'
    exact hdisj a ((siteFamily_table hd hvalid hp hf).members a ha)
      ((siteFamily_table hd hvalid hq hf').members a ha')
  · exact (allSites_disjoint hd).imp_of_mem fun hp hq h => ⟨hp, hq, h⟩

theorem tables_accepted : Accepted g constraints.families ∅ := by
  rw [show constraints.families = _ from hacc.tables]
  refine ⟨fun table htable => ?_, ?_⟩
  · obtain ⟨f, hf, rfl⟩ := List.mem_map.mp htable
    obtain ⟨p, hp, hf⟩ := (mem_families hd hacc hvalid).mp hf
    have ht := siteFamily_table hd hvalid hp hf
    refine ⟨fun hnil => ?_, fun a ha => ⟨?_, rfl⟩⟩
    · have hsize := ht.size
      rw [hnil] at hsize
      exact absurd hsize (by simp)
    · exact hd.actors _ _ (site_order hp).1 a (site_member hp (ht.members a (ht.table a ha)))
  · refine List.nodup_flatten.mpr ⟨fun table htable => ?_, ?_⟩
    · obtain ⟨f, hf, rfl⟩ := List.mem_map.mp htable
      obtain ⟨p, hp, hf⟩ := (mem_families hd hacc hvalid).mp hf
      exact (siteFamily_table hd hvalid hp hf).nodup
    · rw [List.pairwise_map]
      refine (families_disjoint hd hacc hvalid).imp_of_mem fun hf hf' hdisj a ha ha' => ?_
      obtain ⟨p, hp, hf⟩ := (mem_families hd hacc hvalid).mp hf
      obtain ⟨q, hq, hf'⟩ := (mem_families hd hacc hvalid).mp hf'
      exact hdisj a ((siteFamily_table hd hvalid hp hf).table a ha)
        ((siteFamily_table hd hvalid hq hf').table a ha')

theorem cohorts_accepted : Accepted g (constraints.cohorts.map BTreeSet.toList) ∅ := by
  have hmem : ∀ p ∈ cohortSites (allSites g domains), p ∈ allSites g domains :=
    fun p hp => (List.mem_filter.mp hp).1
  rw [show constraints.cohorts = _ from hacc.cohorts, List.map_map]
  refine ⟨fun cohort hcohort => ?_, List.nodup_flatten.mpr ⟨fun cohort hcohort => ?_, ?_⟩⟩
  · obtain ⟨p, hp, rfl⟩ := List.mem_map.mp hcohort
    obtain ⟨hp, hcard⟩ := List.mem_filter.mp hp
    refine ⟨fun hnil => ?_, fun a ha => ⟨hd.actors _ _ (site_order hp).1 a (site_member hp ha), rfl⟩⟩
    have hcard := of_decide_eq_true hcard
    unfold BTreeSet.card at hcard
    rw [show p.component.members.toList = [] from hnil] at hcard
    exact absurd hcard (by simp)
  · obtain ⟨p, _, rfl⟩ := List.mem_map.mp hcohort
    exact p.component.members.nodup
  · rw [List.pairwise_map]
    exact ((allSites_disjoint hd).sublist List.filter_sublist).imp fun h a ha ha' => h a ha ha'

theorem constraints_accepted : (commitmentPlan g constraints).isOk = true := by
  obtain ⟨index, hf⟩ := exists_ok_of_isOk
    ((validateFamiliesFrom_isOk 0 constraints.families ∅).mpr (tables_accepted hd hacc hvalid))
  obtain ⟨cohortIndex, hc⟩ := exists_ok_of_isOk
    ((validateCohortsFrom_isOk 0 constraints.cohorts ∅).mpr (cohorts_accepted hd hacc hvalid))
  unfold commitmentPlan validateFamilies validateCohorts
  rw [hf, hc]
  rfl

end
end

/-! ## the guarantees -/

/-- a table and the weak component, around `seed`, that it stands for -/
structure RouteTable (g : RouteGraph Actor) (domains : BTreeMap Domain (List Actor))
    (f : FamilyPlan Domain Actor) (order : List Actor) (seed : Actor) : Prop where
  domain : domains.get f.domain = some order
  origin : seed ∈ order
  size : 2 ≤ f.table.length
  nodup : f.table.Nodup
  connected : ∀ a ∈ f.table, g.Connected (BTreeSet.ofList order) seed a
  /-- only a member that is reached from outside the domain may be left out -/
  complete : ∀ a, g.Connected (BTreeSet.ofList order) seed a → (∀ s, g.Emits s a → s ∈ order) →
    a ∈ f.table

/-- the table that a selector indexes, opened in the cut of the selector's source and variants -/
structure SelectorTable (g : RouteGraph Actor) (domains : BTreeMap Domain (List Actor))
    (plan : RoutePlan Domain Actor) (s : SelectorRequirement Domain Actor)
    (f : FamilyPlan Domain Actor) (cut : Cut) : Prop where
  component : f.domain = s.domain ∧ ∃ order, domains.get s.domain = some order ∧
    ∀ a ∈ f.table, g.Connected (BTreeSet.ofList order) s.source a
  leading : s.variants <+: f.table
  /-- no other table contains a variant -/
  single : ∀ f' ∈ plan.families, (∃ v ∈ s.variants, v ∈ f'.table) → f' = f
  source : plan.commitments.cuts.get s.source = some cut
  shared : ∀ v ∈ s.variants, plan.commitments.cuts.get v = some cut
  leaves : ∀ a ∈ f.table, plan.commitments.forest.Carries cut a

/-- what holds of the tables of an accepted plan -/
structure RouteTables (g : RouteGraph Actor) (domains : BTreeMap Domain (List Actor))
    (selectors : List (SelectorRequirement Domain Actor)) (plan : RoutePlan Domain Actor) :
    Prop where
  disjoint : plan.families.Pairwise fun f f' => ∀ a ∈ f.members, a ∉ f'.members
  members : ∀ f ∈ plan.families, ∀ a ∈ f.table, a ∈ f.members
  tables : ∀ f ∈ plan.families, ∃ order seed, RouteTable g domains f order seed
  selectors : ∀ s ∈ selectors, ∃ f ∈ plan.families, ∃ cut, SelectorTable g domains plan s f cut

section
variable {g : RouteGraph Actor} {domains : BTreeMap Domain (List Actor)}
  {selectors : List (SelectorRequirement Domain Actor)}

theorem SiteTable.routeTable {p : Site Domain Actor} (hp : p ∈ allSites g domains)
    {f : FamilyPlan Domain Actor} (h : SiteTable p f) :
    ∃ seed, RouteTable g domains f p.order seed := by
  obtain ⟨horder, hcomp⟩ := site_order hp
  have hpart := components_spec g (BTreeSet.ofList p.order)
  obtain ⟨seed, hseed, hmembers⟩ := hpart.connected _ hcomp
  refine ⟨seed, h.domain ▸ horder, BTreeSet.mem_ofList.mp hseed, h.size, h.nodup,
    fun a ha => (hmembers a).mp (h.members a (h.table a ha)), fun a ha hin => ?_⟩
  refine h.complete a ((hmembers a).mpr ha) fun hgate => ?_
  obtain ⟨_, s, hs, hout⟩ := (hpart.gates _ hcomp a).mp hgate
  exact hout (BTreeSet.mem_ofList.mpr (hin s hs))

theorem selectorTable (hd : DomainsOf g domains) {plan : RoutePlan Domain Actor}
    {constraints : CommitmentConstraints Actor}
    (hacc : Accumulated selectors (allSites g domains) ⟨plan.families, constraints⟩)
    (hvalid : ∀ s ∈ selectors, SelectorValid domains s)
    (hplan : commitmentPlan g constraints = .ok plan.commitments)
    {s : SelectorRequirement Domain Actor} (hs : s ∈ selectors) :
    ∃ f ∈ plan.families, ∃ cut, SelectorTable g domains plan s f cut := by
  obtain ⟨p, hp, hdomain, hcard, hsource, hvariants, hsel⟩ := selector_site hacc hs (hvalid s hs)
  obtain ⟨f, hf, hleading⟩ := siteFamily_prefix hp hsource hsel
  have ht := siteFamily_table hd hvalid hp hf
  have hmem : f ∈ plan.families := (mem_families hd hacc hvalid).mpr ⟨p, hp, hf⟩
  have hcohort : p.component.members ∈ constraints.cohorts :=
    hacc.mem_cohorts.mpr ⟨p, hp, hcard, rfl⟩
  obtain ⟨familyByActor, locations, hplanned⟩ := commitmentPlan_planned hplan
  obtain ⟨cut, hcut, hsels⟩ := hplanned.cuts s.source (hplanned.cohorts _ hcohort _ hsource)
  obtain ⟨horder, hcomp⟩ := site_order hp
  obtain ⟨seed, _, hmembers⟩ := (components_spec g (BTreeSet.ofList p.order)).connected _ hcomp
  refine ⟨f, hmem, cut, ⟨ht.domain.trans hdomain, p.order, hdomain ▸ horder, fun a ha => ?_⟩,
    hleading, ?_, hcut, fun v hv => ?_, fun a ha => ?_⟩
  · have hsrc := (hmembers s.source).mp hsource
    exact hsrc.symm.trans ((hmembers a).mp (ht.members a (ht.table a ha)))
  · rintro f' hf' ⟨v, hv, hvf'⟩
    by_contra hne
    obtain ⟨q, hq, hq'⟩ := (mem_families hd hacc hvalid).mp hf'
    have hsymm : Std.Symm fun f f' : FamilyPlan Domain Actor => ∀ a ∈ f.members, a ∉ f'.members :=
      ⟨fun f f' h a ha ha' => h a ha' ha⟩
    exact (families_disjoint hd hacc hvalid).forall hf' hmem hne v
      ((siteFamily_table hd hvalid hq hq').table v hvf') (ht.table v (hleading.subset hv))
  · exact hplanned.shared hsels hcohort hsource (hvariants v hv)
  · exact hplanned.carries_exposed hsels (Or.inr ⟨p.component.members, hcohort, hsource,
      Or.inl (ht.members a (ht.table a ha))⟩)

end

/-- **Route tables.**  Over disjoint domains of distinct graph actors the constraints of a route
plan are always accepted; its families are disjoint, every table stands for one weak component, and
every selector indexes a prefix of the table of its source's component, which the source and all
variants carry opened. -/
theorem routePlan_tables (g : RouteGraph Actor) (domains : BTreeMap Domain (List Actor))
    (selectors : List (SelectorRequirement Domain Actor)) (hd : DomainsOf g domains) :
    (∀ e, routePlan g domains selectors ≠ .error (.constraint e)) ∧
      ∀ plan, routePlan g domains selectors = .ok plan → RouteTables g domains selectors plan := by
  constructor
  · intro e h
    unfold routePlan at h
    obtain h | ⟨_, hvalid, h⟩ := bind_eq_error.mp h
    · exact validateSelectors_not_constraint 0 selectors h
    obtain h | ⟨acc, hfold, h⟩ := bind_eq_error.mp h
    · obtain ⟨_, _, _, h⟩ := foldlM_error h
      exact planDomain_not_constraint h
    · have haccepted := constraints_accepted hd (planDomains_accumulated hfold)
        (validateSelectorRequirements_ok hvalid)
      cases hc : commitmentPlan g acc.constraints with
      | error e' => rw [hc] at haccepted; cases haccepted
      | ok commitments => rw [hc] at h; cases h
  · intro plan h
    obtain ⟨hvalid, constraints, hacc, hplan⟩ := routePlan_ok h
    refine ⟨families_disjoint hd hacc hvalid, fun f hf => ?_, fun f hf => ?_, fun s hs => ?_⟩
    · obtain ⟨p, hp, hf⟩ := (mem_families hd hacc hvalid).mp hf
      exact (siteFamily_table hd hvalid hp hf).table
    · obtain ⟨p, hp, hf⟩ := (mem_families hd hacc hvalid).mp hf
      exact ⟨p.order, (siteFamily_table hd hvalid hp hf).routeTable hp⟩
    · exact selectorTable hd hacc hvalid hplan hs

def sampleDomains : BTreeMap String (List String) :=
  ((∅ : BTreeMap String (List String)).insert "Piece" ["B", "A", "C"]).insert "Board" ["D", "E"]

theorem sampleDomains_of : DomainsOf sampleGraph sampleDomains := by
  have hget : ∀ d order, sampleDomains.get d = some order →
      (d = "Board" ∧ order = ["D", "E"]) ∨ (d = "Piece" ∧ order = ["B", "A", "C"]) := by
    intro d order h
    unfold sampleDomains at h
    rw [BTreeMap.get_insert, BTreeMap.get_insert, BTreeMap.get_empty] at h
    split_ifs at h with h1 h2
    · exact Or.inl ⟨h1, (Option.some.inj h).symm⟩
    · exact Or.inr ⟨h2, (Option.some.inj h).symm⟩
  refine ⟨fun d order h => ?_, fun d order h => ?_, fun d d' order order' hne h h' => ?_⟩
  · rcases hget d order h with ⟨_, rfl⟩ | ⟨_, rfl⟩ <;> decide +kernel
  · rcases hget d order h with ⟨_, rfl⟩ | ⟨_, rfl⟩ <;> decide +kernel
  · rcases hget d order h with ⟨rfl, rfl⟩ | ⟨rfl, rfl⟩ <;>
      rcases hget d' order' h' with ⟨rfl, rfl⟩ | ⟨rfl, rfl⟩ <;>
      first | exact absurd rfl hne | decide +kernel

theorem routePlan_tables_sample :
    ∃ plan, routePlan sampleGraph sampleDomains [⟨"Piece", "A", ["C", "B"]⟩] = .ok plan ∧
      RouteTables sampleGraph sampleDomains [⟨"Piece", "A", ["C", "B"]⟩] plan := by
  have haccepted : (routePlan sampleGraph sampleDomains [⟨"Piece", "A", ["C", "B"]⟩]).isOk = true := by
    decide +kernel
  obtain ⟨plan, h⟩ := exists_ok_of_isOk haccepted
  exact ⟨plan, h, (routePlan_tables sampleGraph sampleDomains _ sampleDomains_of).2 plan h⟩

end Argent.Routing
