import Argent.Base.Fallible
import Argent.Routing.ComponentsSound
import Argent.Routing.RoutePlan

/-!
# What a route plan guarantees

* `SelectorValid`        an accepted selector requirement;
* `FamilyOf`             a family beside the component that it comes from;
* `Accumulated`          the invariant of the two loops of `route_plan`;
* `routePlan_ok`         the steps of an accepted route plan;
* `routePlan_planned`    **an accepted route plan**: its constraints, the origin of its families and
                         the components of its selectors.
-/

set_option linter.unusedSectionVars false
set_option linter.unusedVariables false

namespace Argent.Routing
open Argent.Fallible RouteGraph
variable {Domain Actor : Type} [LinearOrder Domain] [LinearOrder Actor]

/-! ## selector requirements -/

theorem validateVariants_ok {i : Nat} {domain : Domain} {domainActors : BTreeSet Actor} :
    ∀ {variants : List Actor} {seen : BTreeSet Actor},
      validateVariants i domain domainActors variants seen = .ok () →
      variants.Nodup ∧ (∀ a ∈ variants, a ∉ seen) ∧ ∀ a ∈ variants, a ∈ domainActors := by
  intro variants
  induction variants with
  | nil =>
    intro seen _
    exact ⟨List.nodup_nil, fun a ha => absurd ha List.not_mem_nil,
      fun a ha => absurd ha List.not_mem_nil⟩
  | cons v variants ih =>
    intro seen h
    unfold validateVariants at h
    by_cases hv : v ∈ seen
    · rw [if_pos hv] at h
      cases h
    rw [if_neg hv] at h
    by_cases hd : v ∉ domainActors
    · rw [if_pos hd] at h
      cases h
    rw [if_neg hd] at h
    obtain ⟨hnd, hfresh, hin⟩ := ih h
    have hnot : v ∉ variants := fun hm => hfresh v hm (BTreeSet.mem_insert.mpr (Or.inl rfl))
    refine ⟨List.nodup_cons.mpr ⟨hnot, hnd⟩, ?_, ?_⟩
    · intro a ha
      obtain rfl | ha := List.mem_cons.mp ha
      · exact hv
      · exact fun hs => hfresh a ha (BTreeSet.mem_insert.mpr (Or.inr hs))
    · intro a ha
      obtain rfl | ha := List.mem_cons.mp ha
      · exact not_not.mp hd
      · exact hin a ha

/-- an accepted selector requirement: distinct variants, all in the domain of the source -/
structure SelectorValid (domains : BTreeMap Domain (List Actor))
    (s : SelectorRequirement Domain Actor) : Prop where
  order : ∃ order, domains.get s.domain = some order ∧ s.source ∈ order ∧ ∀ a ∈ s.variants, a ∈ order
  size : 2 ≤ s.variants.length
  nodup : s.variants.Nodup

theorem validateSelector_ok {domains : BTreeMap Domain (List Actor)} {i : Nat}
    {s : SelectorRequirement Domain Actor} (h : validateSelector domains i s = .ok ()) :
    SelectorValid domains s := by
  unfold validateSelector at h
  cases ho : domains.get s.domain with
  | none => rw [ho] at h; cases h
  | some order =>
    rw [ho] at h
    dsimp only at h
    by_cases hs : s.source ∉ BTreeSet.ofList order
    · rw [if_pos hs] at h
      cases h
    rw [if_neg hs] at h
    by_cases hl : s.variants.length < 2
    · rw [if_pos hl] at h
      cases h
    rw [if_neg hl] at h
    obtain ⟨hnd, _, hin⟩ := validateVariants_ok h
    exact ⟨⟨order, ho, BTreeSet.mem_ofList.mp (not_not.mp hs),
      fun a ha => BTreeSet.mem_ofList.mp (hin a ha)⟩, not_lt.mp hl, hnd⟩

theorem validateSelectorRequirements_ok {domains : BTreeMap Domain (List Actor)}
    {selectors : List (SelectorRequirement Domain Actor)}
    (h : validateSelectorRequirements domains selectors = .ok ()) :
    ∀ s ∈ selectors, SelectorValid domains s := by
  suffices hgen : ∀ (l : List (SelectorRequirement Domain Actor)) (i : Nat),
      validateSelectorRequirementsFrom domains i l = .ok () → ∀ s ∈ l, SelectorValid domains s by
    exact hgen selectors 0 h
  intro l
  induction l with
  | nil => exact fun _ _ s hs => absurd hs List.not_mem_nil
  | cons t l ih =>
    intro i h s hs
    unfold validateSelectorRequirementsFrom at h
    obtain ⟨_, hfirst, hrest⟩ := bind_eq_ok.mp h
    obtain rfl | hs := List.mem_cons.mp hs
    · exact validateSelector_ok hfirst
    · exact ih (i + 1) hrest s hs

theorem checkComponentSelectors_ok {domain : Domain} {component : BTreeSet Actor} {firstIndex : Nat}
    {first : SelectorRequirement Domain Actor} {l : List (SelectorRequirement Domain Actor × Nat)}
    (h : checkComponentSelectors domain component firstIndex first l = .ok ()) :
    ∀ s ∈ l, (∀ v ∈ s.1.variants, v ∈ component) ∧ s.1.variants = first.variants := by
  induction l with
  | nil => exact fun s hs => absurd hs List.not_mem_nil
  | cons t l ih =>
    obtain ⟨selector, i⟩ := t
    unfold checkComponentSelectors at h
    cases hfind : selector.variants.find? fun actor => decide (actor ∉ component) with
    | some actor => rw [hfind] at h; cases h
    | none =>
      rw [hfind] at h
      dsimp only at h
      by_cases hne : selector.variants ≠ first.variants
      · rw [if_pos hne] at h
        cases h
      rw [if_neg hne] at h
      have hin : ∀ v ∈ selector.variants, v ∈ component := by
        intro v hv
        have := List.find?_eq_none.mp hfind v hv
        exact not_not.mp fun hn => this (decide_eq_true hn)
      intro s hs
      obtain rfl | hs := List.mem_cons.mp hs
      · exact ⟨hin, not_not.mp hne⟩
      · exact ih h s hs

/-- the prefix of a component is shared by all requirements whose source it contains -/
theorem selectorPrefixForComponent_ok {domain : Domain} {component : BTreeSet Actor}
    {selectors : List (SelectorRequirement Domain Actor)} {selected : Option (List Actor)}
    (h : selectorPrefixForComponent domain component selectors = .ok selected) :
    (∀ s ∈ selectors, s.domain = domain → s.source ∈ component →
      selected = some s.variants ∧ ∀ v ∈ s.variants, v ∈ component) ∧
    ∀ table, selected = some table →
      ∃ s ∈ selectors, s.domain = domain ∧ s.source ∈ component ∧ table = s.variants := by
  unfold selectorPrefixForComponent at h
  dsimp only at h
  set l := selectors.zipIdx.filter fun s =>
    decide (s.1.domain = domain) && decide (s.1.source ∈ component) with hl
  have hmem : ∀ s, (∃ i, (s, i) ∈ l) ↔ s ∈ selectors ∧ s.domain = domain ∧ s.source ∈ component := by
    intro s
    have hfst : s ∈ selectors ↔ ∃ i, (s, i) ∈ selectors.zipIdx := by
      have hmap : s ∈ selectors.zipIdx.map Prod.fst ↔ ∃ i, (s, i) ∈ selectors.zipIdx :=
        List.mem_map.trans
          ⟨fun ⟨⟨_, i⟩, hi, heq⟩ => ⟨i, heq ▸ hi⟩, fun ⟨i, hi⟩ => ⟨(s, i), hi, rfl⟩⟩
      rwa [List.zipIdx_map_fst] at hmap
    rw [hfst, hl]
    simp only [List.mem_filter, Bool.and_eq_true, decide_eq_true_eq, exists_and_right]
  clear_value l
  cases l with
  | nil =>
    cases h
    refine ⟨fun s hs hd hc => ?_, fun table ht => by cases ht⟩
    obtain ⟨i, hi⟩ := (hmem s).mpr ⟨hs, hd, hc⟩
    exact absurd hi List.not_mem_nil
  | cons t rest =>
    obtain ⟨first, firstIndex⟩ := t
    obtain ⟨_, hcheck, hret⟩ := bind_eq_ok.mp h
    rw [pure_eq_ok] at hret
    have hall := checkComponentSelectors_ok hcheck
    refine ⟨fun s hs hd hc => ?_, fun table ht => ?_⟩
    · obtain ⟨i, hi⟩ := (hmem s).mpr ⟨hs, hd, hc⟩
      obtain ⟨hin, heq⟩ := hall (s, i) hi
      exact ⟨by rw [← hret, ← heq], hin⟩
    · obtain ⟨hs, hd, hc⟩ := (hmem first).mp ⟨firstIndex, List.mem_cons_self⟩
      rw [← hret] at ht
      exact ⟨first, hs, hd, hc, (Option.some.inj ht).symm⟩

/-! ## families -/

theorem mem_orderedMembers {order : List Actor} {members : BTreeSet Actor} {a : Actor} :
    a ∈ orderedMembers order members ↔ a ∈ order ∧ a ∈ members := by
  unfold orderedMembers
  rw [List.mem_filter, decide_eq_true_eq]

/-- a family beside the component that it comes from -/
structure FamilyOf (domain : Domain) (order : List Actor) (c : Component Actor)
    (f : FamilyPlan Domain Actor) : Prop where
  domain : f.domain = domain
  members : f.members = orderedMembers order c.members
  rep : f.rep ∈ f.members
  table : ∀ a ∈ f.table, a ∈ f.members
  nontrivial : 1 < c.members.card

theorem BTreeSet.one_lt_card {s : BTreeSet Actor} {a b : Actor} (ha : a ∈ s) (hb : b ∈ s)
    (hne : a ≠ b) : 1 < s.card := by
  rw [← BTreeSet.card_toFinset]
  exact Finset.one_lt_card.mpr
    ⟨a, BTreeSet.mem_toFinset.mpr ha, b, BTreeSet.mem_toFinset.mpr hb, hne⟩

theorem exists_ne_of_two_le {l : List Actor} (h : 2 ≤ l.length) (hnd : l.Nodup) :
    ∃ a ∈ l, ∃ b ∈ l, a ≠ b := by
  obtain _ | ⟨a, _ | ⟨b, l⟩⟩ := l
  · exact absurd h (by simp)
  · exact absurd h (by simp)
  refine ⟨a, List.mem_cons_self, b, List.mem_cons_of_mem _ List.mem_cons_self, fun hab => ?_⟩
  rw [List.nodup_cons] at hnd
  exact hnd.1 (hab ▸ List.mem_cons_self)

theorem componentFamily_familyOf {g : RouteGraph Actor} {domains : BTreeMap Domain (List Actor)}
    {domain : Domain} {order : List Actor} (hget : domains.get domain = some order)
    {c : Component Actor} (hc : c ∈ g.components (BTreeSet.ofList order))
    {selectors : List (SelectorRequirement Domain Actor)}
    (hvalid : ∀ s ∈ selectors, SelectorValid domains s) {selected : Option (List Actor)}
    (hsel : selectorPrefixForComponent domain c.members selectors = .ok selected)
    {f : FamilyPlan Domain Actor} (h : componentFamily domain order c selected = some f) :
    FamilyOf domain order c f := by
  have hpart := components_spec g (BTreeSet.ofList order)
  have hgates : ∀ a ∈ c.gates, a ∈ c.members := fun a ha => ((hpart.gates c hc a).mp ha).1
  have hsub : ∀ a ∈ c.members, a ∈ order := fun a ha => BTreeSet.mem_ofList.mp (hpart.subset hc ha)
  unfold componentFamily at h
  simp only [bind, Option.bind_eq_some_iff] at h
  obtain ⟨rep, hrep, table, htable, hf⟩ := h
  cases hf
  have hrepmem : rep ∈ orderedMembers order c.members := by
    obtain hg | ⟨_, hm⟩ := Option.or_eq_some_iff.mp hrep
    · have := mem_orderedMembers.mp (List.mem_of_mem_head? (Option.mem_def.mpr hg))
      exact mem_orderedMembers.mpr ⟨this.1, hgates rep this.2⟩
    · exact List.mem_of_mem_head? (Option.mem_def.mpr hm)
  unfold componentTable at htable
  cases selected with
  | some variants =>
    obtain ⟨s, hs, hd, hsrc, hv⟩ := (selectorPrefixForComponent_ok hsel).2 variants rfl
    have hin := ((selectorPrefixForComponent_ok hsel).1 s hs hd hsrc).2
    rw [← hv] at hin
    refine ⟨rfl, rfl, hrepmem, fun a ha => ?_, ?_⟩
    · cases htable
      obtain ha | ha := List.mem_append.mp ha
      · exact mem_orderedMembers.mpr ⟨hsub a (hin a ha), hin a ha⟩
      · exact (List.mem_filter.mp ha).1
    · obtain ⟨a, ha, b, hb, hne⟩ := exists_ne_of_two_le (hvalid s hs).size (hvalid s hs).nodup
      rw [← hv] at ha hb
      exact BTreeSet.one_lt_card (hin a ha) (hin b hb) hne
  | none =>
    dsimp only at htable
    by_cases hcard : c.members.card < 3
    · rw [if_pos hcard] at htable
      cases htable
    rw [if_neg hcard] at htable
    refine ⟨rfl, rfl, hrepmem, fun a ha => ?_, by omega⟩
    split at htable
    · cases htable
    · cases htable
      exact (List.mem_filter.mp ha).1

/-! ## the loops -/

/-- one component of one domain, with the actor order of the domain -/
structure Site (Domain Actor : Type) [LinearOrder Actor] where
  domain : Domain
  order : List Actor
  component : Component Actor

/-- the components of one domain -/
def sitesOf (g : RouteGraph Actor) (entry : Domain × List Actor) : List (Site Domain Actor) :=
  (g.components (BTreeSet.ofList entry.2)).map fun c => ⟨entry.1, entry.2, c⟩

/-- the family of one site, when its selectors agree and it has a table -/
def siteFamily (selectors : List (SelectorRequirement Domain Actor)) (p : Site Domain Actor) :
    Option (FamilyPlan Domain Actor) := do
  let selected ← (selectorPrefixForComponent p.domain p.component.members selectors).toOption
  componentFamily p.domain p.order p.component selected

theorem siteFamily_eq_some {selectors : List (SelectorRequirement Domain Actor)}
    {p : Site Domain Actor} {f : FamilyPlan Domain Actor} (h : siteFamily selectors p = some f) :
    ∃ selected, selectorPrefixForComponent p.domain p.component.members selectors = .ok selected ∧
      componentFamily p.domain p.order p.component selected = some f := by
  obtain ⟨selected, hsel, hf⟩ := Option.bind_eq_some_iff.mp h
  cases hpre : selectorPrefixForComponent p.domain p.component.members selectors with
  | error e => rw [hpre] at hsel; cases hsel
  | ok selected' =>
    rw [hpre] at hsel
    obtain rfl : selected' = selected := Option.some.inj hsel
    exact ⟨selected', rfl, hf⟩

/-- the sites that form a cohort -/
def cohortSites (sites : List (Site Domain Actor)) : List (Site Domain Actor) :=
  sites.filter fun p => decide (1 < p.component.members.card)

/-- what the accumulator holds once the components `done` are planned -/
structure Accumulated (selectors : List (SelectorRequirement Domain Actor))
    (done : List (Site Domain Actor)) (acc : PlanAccumulator Domain Actor) : Prop where
  families : acc.families = done.filterMap (siteFamily selectors)
  tables : acc.constraints.families = acc.families.map (·.table)
  cohorts : acc.constraints.cohorts = (cohortSites done).map (·.component.members)
  selected : ∀ p ∈ done, ∃ selected,
    selectorPrefixForComponent p.domain p.component.members selectors = .ok selected

theorem Accumulated.mem_cohorts {selectors : List (SelectorRequirement Domain Actor)}
    {done : List (Site Domain Actor)} {acc : PlanAccumulator Domain Actor}
    (h : Accumulated selectors done acc) {x : BTreeSet Actor} :
    x ∈ acc.constraints.cohorts ↔
      ∃ p ∈ done, 1 < p.component.members.card ∧ x = p.component.members := by
  rw [h.cohorts, List.mem_map]
  constructor
  · intro ⟨p, hp, hx⟩
    obtain ⟨hmem, hcard⟩ := List.mem_filter.mp hp
    exact ⟨p, hmem, of_decide_eq_true hcard, hx.symm⟩
  · intro ⟨p, hmem, hcard, hx⟩
    exact ⟨p, List.mem_filter.mpr ⟨hmem, decide_eq_true hcard⟩, hx.symm⟩

theorem planComponent_accumulated {selectors : List (SelectorRequirement Domain Actor)}
    {done : List (Site Domain Actor)} {p : Site Domain Actor} {acc acc' : PlanAccumulator Domain Actor}
    (hacc : Accumulated selectors done acc)
    (h : planComponent p.domain p.order selectors acc p.component = .ok acc') :
    Accumulated selectors (done ++ [p]) acc' := by
  unfold planComponent at h
  obtain ⟨selected, hsel, h⟩ := bind_eq_ok.mp h
  have hselected : ∀ q ∈ done ++ [p], ∃ selected,
      selectorPrefixForComponent q.domain q.component.members selectors = .ok selected := by
    intro q hq
    obtain hq | hq := List.mem_append.mp hq
    · exact hacc.selected q hq
    · rw [List.mem_singleton.mp hq]
      exact ⟨selected, hsel⟩
  have hcohorts : (if 1 < p.component.members.card then
      acc.constraints.cohorts ++ [p.component.members] else acc.constraints.cohorts) =
      (cohortSites (done ++ [p])).map (·.component.members) := by
    unfold cohortSites
    rw [List.filter_append, List.map_append, hacc.cohorts]
    split
    · rename_i hcard
      rw [List.filter_singleton, decide_eq_true hcard]
      rfl
    · rename_i hcard
      rw [List.filter_singleton, decide_eq_false hcard]
      exact (List.append_nil _).symm
  have hsite : siteFamily selectors p = componentFamily p.domain p.order p.component selected := by
    unfold siteFamily
    rw [hsel]
    rfl
  cases hfam : componentFamily p.domain p.order p.component selected with
  | none =>
    rw [hfam] at h hsite
    cases h
    refine ⟨?_, hacc.tables, hcohorts, hselected⟩
    rw [List.filterMap_append, List.filterMap_cons_none hsite, List.filterMap_nil, List.append_nil]
    exact hacc.families
  | some family =>
    rw [hfam] at h hsite
    cases h
    refine ⟨?_, ?_, hcohorts, hselected⟩
    · rw [List.filterMap_append, List.filterMap_cons_some hsite, List.filterMap_nil]
      exact congrArg (· ++ [family]) hacc.families
    · change acc.constraints.families ++ [family.table] = (acc.families ++ [family]).map (·.table)
      rw [hacc.tables, List.map_append, List.map_singleton]

theorem planDomain_accumulated {g : RouteGraph Actor}
    {selectors : List (SelectorRequirement Domain Actor)} {done : List (Site Domain Actor)}
    {entry : Domain × List Actor} {acc acc' : PlanAccumulator Domain Actor}
    (hacc : Accumulated selectors done acc) (h : planDomain g selectors acc entry = .ok acc') :
    Accumulated selectors (done ++ sitesOf g entry) acc' := by
  refine foldlM_ok (fun comps s => Accumulated selectors
    (done ++ comps.map fun c => ⟨entry.1, entry.2, c⟩) s) h ?_ ?_
  · rw [List.map_nil, List.append_nil]
    exact hacc
  · intro comps s c s' hc hs hstep
    rw [List.map_append, List.map_singleton, ← List.append_assoc]
    exact planComponent_accumulated hs hstep

/-- an accepted route plan: its constraints, the origin of its families and its selectors -/
structure PlannedRoutes (g : RouteGraph Actor) (domains : BTreeMap Domain (List Actor))
    (selectors : List (SelectorRequirement Domain Actor)) (plan : RoutePlan Domain Actor)
    (constraints : CommitmentConstraints Actor) : Prop where
  families : constraints.families = plan.families.map (·.table)
  cohorts : ∀ x, x ∈ constraints.cohorts ↔ ∃ entry ∈ domains.entries, ∃ p ∈ sitesOf g entry,
    1 < p.component.members.card ∧ x = p.component.members
  commitments : commitmentPlan g constraints = .ok plan.commitments
  origin : ∀ f ∈ plan.families, ∃ entry ∈ domains.entries, ∃ p ∈ sitesOf g entry,
    FamilyOf p.domain p.order p.component f
  /-- two families of one domain have no member in common -/
  unique : ∀ f ∈ plan.families, ∀ f' ∈ plan.families, f.domain = f'.domain →
    ∀ a ∈ f.members, a ∈ f'.members → f = f'
  /-- the variants of a selector lie in the component of its source -/
  selectors : ∀ s ∈ selectors, ∃ entry ∈ domains.entries, ∃ p ∈ sitesOf g entry,
    1 < p.component.members.card ∧ s.source ∈ p.component.members ∧
      ∀ v ∈ s.variants, v ∈ p.component.members

theorem mem_sitesOf {g : RouteGraph Actor} {entry : Domain × List Actor} {p : Site Domain Actor} :
    p ∈ sitesOf g entry ↔ p.domain = entry.1 ∧ p.order = entry.2 ∧
      p.component ∈ g.components (BTreeSet.ofList entry.2) := by
  unfold sitesOf
  rw [List.mem_map]
  constructor
  · intro ⟨c, hc, hp⟩
    rw [← hp]
    exact ⟨rfl, rfl, hc⟩
  · intro ⟨hd, ho, hc⟩
    refine ⟨p.component, hc, ?_⟩
    rw [← hd, ← ho]

theorem sitesOf_unique {g : RouteGraph Actor} {domains : BTreeMap Domain (List Actor)}
    {entry entry' : Domain × List Actor} (he : entry ∈ domains.entries)
    (he' : entry' ∈ domains.entries) {p p' : Site Domain Actor} (hp : p ∈ sitesOf g entry)
    (hp' : p' ∈ sitesOf g entry') (hd : p.domain = p'.domain) {a : Actor}
    (ha : a ∈ p.component.members) (ha' : a ∈ p'.component.members) : p = p' := by
  obtain ⟨h1, h2, h3⟩ := mem_sitesOf.mp hp
  obtain ⟨h1', h2', h3'⟩ := mem_sitesOf.mp hp'
  have hentry : entry.2 = entry'.2 := by
    have hget := BTreeMap.mem_entries.mp he
    have hget' := BTreeMap.mem_entries.mp he'
    rw [← h1', ← hd, h1] at hget'
    exact Option.some.inj (hget.symm.trans hget')
  rw [← hentry] at h3'
  obtain ⟨i, hi⟩ := List.mem_iff_getElem?.mp h3
  obtain ⟨j, hj⟩ := List.mem_iff_getElem?.mp h3'
  have hij := (components_spec g (BTreeSet.ofList entry.2)).unique hi hj a ha ha'
  rw [← hij, hi] at hj
  obtain ⟨domain, order, component⟩ := p
  obtain ⟨domain', order', component'⟩ := p'
  dsimp only at hd h2 h2' hj
  rw [hd, h2, h2', hentry, Option.some.inj hj]

theorem FamilyOf.mem_component {domain : Domain} {order : List Actor}
    {c : Component Actor} {f : FamilyPlan Domain Actor} (h : FamilyOf domain order c f)
    {a : Actor} (ha : a ∈ f.members) : a ∈ c.members := by
  rw [h.members] at ha
  exact (mem_orderedMembers.mp ha).2

/-- the sites of all domains in order -/
def allSites (g : RouteGraph Actor) (domains : BTreeMap Domain (List Actor)) :
    List (Site Domain Actor) := domains.entries.flatMap (sitesOf g)

theorem mem_allSites {g : RouteGraph Actor} {domains : BTreeMap Domain (List Actor)}
    {p : Site Domain Actor} :
    p ∈ allSites g domains ↔ ∃ entry ∈ domains.entries, p ∈ sitesOf g entry := List.mem_flatMap

theorem planDomains_accumulated {g : RouteGraph Actor} {domains : BTreeMap Domain (List Actor)}
    {selectors : List (SelectorRequirement Domain Actor)} {acc : PlanAccumulator Domain Actor}
    (h : domains.entries.foldlM (planDomain g selectors) ⟨[], ⟨[], []⟩⟩ = .ok acc) :
    Accumulated selectors (allSites g domains) acc := by
  refine foldlM_ok (fun done s => Accumulated selectors (done.flatMap (sitesOf g)) s) h ?_ ?_
  · exact ⟨rfl, rfl, rfl, fun p hp => absurd hp List.not_mem_nil⟩
  · intro done s entry s' _ hs hstep
    rw [List.flatMap_append, List.flatMap_singleton]
    exact planDomain_accumulated hs hstep

theorem routePlan_ok {g : RouteGraph Actor} {domains : BTreeMap Domain (List Actor)}
    {selectors : List (SelectorRequirement Domain Actor)} {plan : RoutePlan Domain Actor}
    (h : routePlan g domains selectors = .ok plan) :
    (∀ s ∈ selectors, SelectorValid domains s) ∧ ∃ constraints,
      Accumulated selectors (allSites g domains) ⟨plan.families, constraints⟩ ∧
        commitmentPlan g constraints = .ok plan.commitments := by
  unfold routePlan at h
  obtain ⟨_, hvalid, h⟩ := bind_eq_ok.mp h
  obtain ⟨acc, hfold, h⟩ := bind_eq_ok.mp h
  refine ⟨validateSelectorRequirements_ok hvalid, acc.constraints, ?_⟩
  have hacc := planDomains_accumulated hfold
  cases hc : commitmentPlan g acc.constraints with
  | error e => rw [hc] at h; cases h
  | ok commitments =>
    rw [hc] at h
    cases h
    exact ⟨hacc, rfl⟩

theorem siteFamily_familyOf {g : RouteGraph Actor} {domains : BTreeMap Domain (List Actor)}
    {selectors : List (SelectorRequirement Domain Actor)}
    (hvalid : ∀ s ∈ selectors, SelectorValid domains s) {p : Site Domain Actor}
    (hp : p ∈ allSites g domains) {f : FamilyPlan Domain Actor}
    (hf : siteFamily selectors p = some f) : FamilyOf p.domain p.order p.component f := by
  obtain ⟨selected, hsel, hf⟩ := siteFamily_eq_some hf
  obtain ⟨entry, he, hp⟩ := mem_allSites.mp hp
  obtain ⟨h1, h2, h3⟩ := mem_sitesOf.mp hp
  rw [← h2] at h3
  refine componentFamily_familyOf (?_ : domains.get p.domain = some p.order) h3 hvalid hsel hf
  rw [h1, h2]
  exact BTreeMap.mem_entries.mp he

theorem selector_site {g : RouteGraph Actor} {domains : BTreeMap Domain (List Actor)}
    {selectors : List (SelectorRequirement Domain Actor)} {acc : PlanAccumulator Domain Actor}
    (hacc : Accumulated selectors (allSites g domains) acc)
    {s : SelectorRequirement Domain Actor} (hs : s ∈ selectors) (hvalid : SelectorValid domains s) :
    ∃ p ∈ allSites g domains, p.domain = s.domain ∧ 1 < p.component.members.card ∧
      s.source ∈ p.component.members ∧ (∀ v ∈ s.variants, v ∈ p.component.members) ∧
        selectorPrefixForComponent p.domain p.component.members selectors =
          .ok (some s.variants) := by
  obtain ⟨⟨order, hget, hsrc, hin⟩, hsize, hnd⟩ := hvalid
  obtain ⟨c, hcomp, hcs⟩ := (components_spec g (BTreeSet.ofList order)).covers s.source
    (BTreeSet.mem_ofList.mpr hsrc)
  have hp : (⟨s.domain, order, c⟩ : Site Domain Actor) ∈ allSites g domains :=
    mem_allSites.mpr ⟨(s.domain, order), BTreeMap.mem_entries.mpr hget,
      mem_sitesOf.mpr ⟨rfl, rfl, hcomp⟩⟩
  obtain ⟨selected, hsel⟩ := hacc.selected _ hp
  obtain ⟨heq, hvars⟩ := (selectorPrefixForComponent_ok hsel).1 s hs rfl hcs
  obtain ⟨a, ha, b, hb, hne⟩ := exists_ne_of_two_le hsize hnd
  exact ⟨_, hp, rfl, BTreeSet.one_lt_card (hvars a ha) (hvars b hb) hne, hcs, hvars,
    hsel.trans (congrArg Except.ok heq)⟩

/-- **An accepted route plan** is planned from the components of its domains. -/
theorem routePlan_planned {g : RouteGraph Actor} {domains : BTreeMap Domain (List Actor)}
    {selectors : List (SelectorRequirement Domain Actor)} {plan : RoutePlan Domain Actor}
    (h : routePlan g domains selectors = .ok plan) :
    ∃ constraints, PlannedRoutes g domains selectors plan constraints := by
  obtain ⟨hvalid, constraints, hacc, hc⟩ := routePlan_ok h
  have hsite : ∀ f ∈ plan.families, ∃ p ∈ allSites g domains, siteFamily selectors p = some f := by
    intro f hf
    have hfam := hacc.families
    dsimp only at hfam
    rw [hfam] at hf
    exact List.mem_filterMap.mp hf
  refine ⟨constraints, hacc.tables, fun x => ?_, hc, fun f hf => ?_, ?_, fun s hs => ?_⟩
  · rw [show x ∈ constraints.cohorts ↔ _ from hacc.mem_cohorts]
    simp only [mem_allSites]
    constructor
    · intro ⟨p, ⟨entry, he, hp⟩, hx⟩
      exact ⟨entry, he, p, hp, hx⟩
    · intro ⟨entry, he, p, hp, hx⟩
      exact ⟨p, ⟨entry, he, hp⟩, hx⟩
  · obtain ⟨p, hp, hf⟩ := hsite f hf
    obtain ⟨entry, he, hpe⟩ := mem_allSites.mp hp
    exact ⟨entry, he, p, hpe, siteFamily_familyOf hvalid hp hf⟩
  · intro f hf f' hf' hd a ha ha'
    obtain ⟨p, hp, hf⟩ := hsite f hf
    obtain ⟨p', hp', hf'⟩ := hsite f' hf'
    have hof := siteFamily_familyOf hvalid hp hf
    have hof' := siteFamily_familyOf hvalid hp' hf'
    obtain ⟨entry, he, hp⟩ := mem_allSites.mp hp
    obtain ⟨entry', he', hp'⟩ := mem_allSites.mp hp'
    have hpp : p = p' := sitesOf_unique he he' hp hp' (by rw [← hof.domain, hd, hof'.domain])
      (hof.mem_component ha) (hof'.mem_component ha')
    subst hpp
    exact Option.some.inj (hf.symm.trans hf')
  · obtain ⟨p, hp, _, hcard, hsrc, hvars, _⟩ := selector_site hacc hs (hvalid s hs)
    obtain ⟨entry, he, hpe⟩ := mem_allSites.mp hp
    exact ⟨entry, he, p, hpe, hcard, hsrc, hvars⟩

end Argent.Routing
