import Argent.Base.Fallible
import Argent.Routing.CutSpec
import Argent.Routing.GraphSound
import Argent.Routing.Transition
import Mathlib.Data.String.Basic

/-!
# Planned cuts

What `commitment_plan` guarantees of the cuts it returns.

* `needsGraph_emits`     the graph whose cohorts are cliques;
* `Exposed`              direct consumes, and the members of the own cohort with their consumes;
* `Planned`              the planned cuts are the selected ones;
* `commitmentPlan_planned`   **an accepted plan is planned**;
* `commitmentPlan_cuts`      **the cuts of a plan**: valid, shared by cohorts, covering, unmixed;
* `commitmentPlan_routes`    **every emit edge has a cut transition**.
-/

set_option linter.unusedSectionVars false
set_option linter.unusedVariables false

namespace Argent.Routing
variable {Actor : Type*} [LinearOrder Actor]

/-! ## the graph of needs -/

section
variable {g : RouteGraph Actor}

theorem needsGraph_spec (cohorts : Cohorts Actor) (hc : ∀ cohort ∈ cohorts, cohort ⊆ g.actors) :
    (needsGraph g cohorts).actors = g.actors ∧
      (∀ a, (needsGraph g cohorts).directConsumes a = g.directConsumes a) ∧
      ∀ s t, (needsGraph g cohorts).Emits s t ↔
        g.Emits s t ∨ ∃ cohort ∈ cohorts, s ∈ cohort ∧ t ∈ cohort ∧ t ≠ s := by
  induction cohorts generalizing g with
  | nil =>
    refine ⟨rfl, fun _ => rfl, fun s t => ?_⟩
    simp [needsGraph]
  | cons cohort cohorts ih =>
    have hc' : ∀ c ∈ cohorts, c ⊆ (g.addEmitClique cohort).actors := by
      intro c hmem
      rw [RouteGraph.addEmitClique_actors]
      exact hc c (List.mem_cons_of_mem _ hmem)
    obtain ⟨h1, h2, h3⟩ := ih hc'
    refine ⟨h1.trans (g.addEmitClique_actors cohort),
      fun a => (h2 a).trans (g.addEmitClique_directConsumes cohort a), fun s t => ?_⟩
    have h3' := h3 s t
    rw [RouteGraph.addEmitClique_emits (hc cohort List.mem_cons_self)] at h3'
    rw [List.exists_mem_cons_iff, ← or_assoc]
    exact h3'

end

/-- whatever an actor uses directly: its consumes, its cohort and the consumes of its cohort -/
def Exposed (g : RouteGraph Actor) (cohorts : Cohorts Actor) (a x : Actor) : Prop :=
  x ∈ g.directConsumes a ∨
    ∃ cohort ∈ cohorts, a ∈ cohort ∧ (x ∈ cohort ∨ ∃ m ∈ cohort, x ∈ g.directConsumes m)

/-- the templates needed in the graph whose cohorts are cliques -/
def Required (g : RouteGraph Actor) (cohorts : Cohorts Actor) : Actor → Actor → Prop :=
  (needsGraph g cohorts).Needed

section
variable {g : RouteGraph Actor} {cohorts : Cohorts Actor}
  (hc : ∀ cohort ∈ cohorts, cohort ⊆ g.actors)
include hc

theorem Required.peer {cohort : BTreeSet Actor} (hmem : cohort ∈ cohorts) {a m : Actor}
    (ha : a ∈ cohort) (hm : m ∈ cohort) {x : Actor} (hx : Required g cohorts m x) :
    Required g cohorts a x := by
  by_cases hne : m = a
  · exact hne ▸ hx
  · exact RouteGraph.Needed.emits
      (((needsGraph_spec cohorts hc).2.2 a m).mpr (Or.inr ⟨cohort, hmem, ha, hm, hne⟩)) hx

theorem Required.actors {a x : Actor} (hx : Required g cohorts a x) : x ∈ g.actors := by
  rw [← (needsGraph_spec cohorts hc).1]
  exact RouteGraph.Needed.actors hx

theorem Exposed.actors {a x : Actor} (hx : Exposed g cohorts a x) : x ∈ g.actors := by
  rcases hx with hx | ⟨cohort, hmem, _, hx | ⟨m, _, hx⟩⟩
  · exact (RouteGraph.directConsumes_actors hx).2
  · exact hc cohort hmem x hx
  · exact (RouteGraph.directConsumes_actors hx).2

/-- an exposed actor is needed, unless it is the actor's own cohort that exposes it -/
theorem Exposed.required {a x : Actor} (hx : Exposed g cohorts a x) :
    Required g cohorts a x ∨ ∃ cohort ∈ cohorts, a ∈ cohort ∧ x ∈ cohort := by
  have hcons : ∀ m, x ∈ g.directConsumes m → Required g cohorts m x := by
    intro m hm
    rw [← (needsGraph_spec cohorts hc).2.1 m] at hm
    exact RouteGraph.Needed.consume hm
  rcases hx with hx | ⟨cohort, hmem, ha, hx | ⟨m, hm, hx⟩⟩
  · exact Or.inl (hcons a hx)
  · exact Or.inr ⟨cohort, hmem, ha, hx⟩
  · exact Or.inl (Required.peer hc hmem ha hm (hcons m hx))

theorem Required.of_emits {s t x : Actor} (hst : g.Emits s t)
    (hx : Required g cohorts t x ∨ Exposed g cohorts t x) : Required g cohorts s x := by
  have hst' : (needsGraph g cohorts).Emits s t :=
    ((needsGraph_spec cohorts hc).2.2 s t).mpr (Or.inl hst)
  have hx' : Required g cohorts t x ∨ ∃ cohort ∈ cohorts, t ∈ cohort ∧ x ∈ cohort :=
    hx.elim Or.inl (Exposed.required hc)
  rcases hx' with hx' | ⟨cohort, hmem, ht, hx'⟩
  · exact RouteGraph.Needed.emits hst' hx'
  · by_cases hne : x = t
    · exact hne ▸ RouteGraph.Needed.target hst'
    · refine RouteGraph.Needed.emits hst' (RouteGraph.Needed.target ?_)
      exact ((needsGraph_spec cohorts hc).2.2 t x).mpr (Or.inr ⟨cohort, hmem, ht, hx', hne⟩)

end

/-! ## the loop over the actors -/

/-- the selected nodes of an actor's planned cut -/
def IsCut (g : RouteGraph Actor) (constraints : CommitmentConstraints Actor)
    (familyByActor : BTreeMap Actor Nat) (locations : CommitmentLocations Actor) (a : Actor)
    (cut : Cut) : Prop :=
  ∀ x, x ∈ cut ↔ Selects constraints.families familyByActor locations
    (Required g constraints.cohorts a) (Exposed g constraints.cohorts a) x

/-- a plan of validated groups whose cuts are the selected ones -/
structure Planned (g : RouteGraph Actor) (constraints : CommitmentConstraints Actor)
    (plan : CommitmentPlan Actor) (familyByActor : BTreeMap Actor Nat)
    (locations : CommitmentLocations Actor) : Prop where
  families : Groups g constraints.families familyByActor
  cohorts : ∀ cohort ∈ constraints.cohorts, cohort ⊆ g.actors
  disjoint : ∀ cohort ∈ constraints.cohorts, ∀ cohort' ∈ constraints.cohorts, ∀ a ∈ cohort,
    a ∈ cohort' → cohort = cohort'
  located : Located g constraints.families familyByActor plan.forest locations
  cuts : ∀ a ∈ g.actors, ∃ cut, plan.cuts.get a = some cut ∧
    IsCut g constraints familyByActor locations a cut

section
variable {g : RouteGraph Actor} {constraints : CommitmentConstraints Actor}
  {familyByActor cohortByActor : BTreeMap Actor Nat} {f : CommitmentForest Actor}
  {locations : CommitmentLocations Actor}

theorem Selects.congr {families : Families Actor} {need need' exposed exposed' : Actor → Prop}
    (hn : ∀ a, need a ↔ need' a) (he : ∀ a, exposed a ↔ exposed' a) (x : NodePath) :
    Selects families familyByActor locations need exposed x ↔
      Selects families familyByActor locations need' exposed' x := by
  rw [funext fun a => propext (hn a), funext fun a => propext (he a)]

section
variable (hg : Groups g constraints.families familyByActor)
  (hcoh : Groups g (constraints.cohorts.map BTreeSet.toList) cohortByActor)
  (h : Located g constraints.families familyByActor f locations)
include hg hcoh h

theorem cohorts_subset : ∀ cohort ∈ constraints.cohorts, cohort ⊆ g.actors := by
  intro cohort hmem a ha
  obtain ⟨k, hk, hkc⟩ := List.getElem_of_mem hmem
  have hget : (constraints.cohorts.map BTreeSet.toList)[k]? = some cohort.toList := by
    rw [List.getElem?_map, List.getElem?_eq_some_iff.mpr ⟨hk, hkc⟩]
    rfl
  exact hcoh.actors hget a ha

theorem mem_cohort_iff {cohort : BTreeSet Actor} {k : Nat}
    (hk : constraints.cohorts[k]? = some cohort) {a : Actor} :
    cohortByActor.get a = some k ↔ a ∈ cohort := by
  have hget : (constraints.cohorts.map BTreeSet.toList)[k]? = some cohort.toList := by
    rw [List.getElem?_map, hk]
    rfl
  constructor
  · intro ha
    obtain ⟨group, hgroup, hmem⟩ := hcoh.get_iff.mp ha
    obtain rfl := Option.some.inj (hget.symm.trans hgroup)
    exact hmem
  · intro ha
    exact hcoh.get_of_mem hget ha

/-- an actor lies in one cohort at most -/
theorem cohort_unique {cohort cohort' : BTreeSet Actor} (hmem : cohort ∈ constraints.cohorts)
    (hmem' : cohort' ∈ constraints.cohorts) {a : Actor} (ha : a ∈ cohort) (ha' : a ∈ cohort') :
    cohort = cohort' := by
  obtain ⟨k, hk⟩ := List.mem_iff_getElem?.mp hmem
  obtain ⟨l, hl⟩ := List.mem_iff_getElem?.mp hmem'
  have h1 := (mem_cohort_iff hg hcoh h hk).mpr ha
  have h2 := (mem_cohort_iff hg hcoh h hl).mpr ha'
  obtain rfl := Option.some.inj (h1.symm.trans h2)
  exact Option.some.inj (hk.symm.trans hl)

theorem mem_actorNeeds {a : Actor} (ha : a ∈ g.actors) (x : Actor) :
    x ∈ (needsGraph g constraints.cohorts).needs.getD a ↔ Required g constraints.cohorts a x := by
  refine RouteGraph.mem_needs ?_ x
  rw [(needsGraph_spec constraints.cohorts (cohorts_subset hg hcoh h)).1]
  exact ha

theorem standaloneCut_isCut {a : Actor} (ha : a ∈ g.actors) (hnone : cohortByActor.get a = none) :
    IsCut g constraints familyByActor locations a
      (standaloneCut g constraints familyByActor locations
        (needsGraph g constraints.cohorts).needs a) := by
  have hsub := cohorts_subset hg hcoh h
  -- exposing nothing is what happens without an entry of `consumes`
  have heq : standaloneCut g constraints familyByActor locations
      (needsGraph g constraints.cohorts).needs a
      = exposeActors (cutForNeeds ((needsGraph g constraints.cohorts).needs.getD a) familyByActor
          locations) (g.directConsumes a) constraints.families familyByActor locations := by
    unfold standaloneCut RouteGraph.directConsumes BTreeMap.getD
    cases g.consumes.get a <;> rfl
  intro x
  rw [heq, mem_exposeActors hg h
    (fun b hb => Required.actors hsub ((mem_actorNeeds hg hcoh h ha b).mp hb))
    (fun b hb => (RouteGraph.directConsumes_actors hb).2)]
  refine Selects.congr (mem_actorNeeds hg hcoh h ha) (fun b => ?_) x
  constructor
  · exact Or.inl
  · rintro (hb | ⟨cohort, hmem, hac, _⟩)
    · exact hb
    · obtain ⟨k, hk⟩ := List.mem_iff_getElem?.mp hmem
      rw [(mem_cohort_iff hg hcoh h hk).mpr hac] at hnone
      cases hnone

theorem mem_exposedActors {cohort : BTreeSet Actor} {x : Actor} :
    x ∈ exposedActors g cohort ↔ x ∈ cohort ∨ ∃ m ∈ cohort, x ∈ g.directConsumes m := by
  unfold exposedActors
  rw [BTreeSet.mem_extend, List.mem_flatMap]
  rfl

theorem cohortCut_isCut {cohort : BTreeSet Actor} (hmem : cohort ∈ constraints.cohorts) {a : Actor}
    (ha : a ∈ cohort) :
    IsCut g constraints familyByActor locations a
      (cohortCut g constraints familyByActor locations
        (needsGraph g constraints.cohorts).needs cohort) := by
  have hsub := cohorts_subset hg hcoh h
  obtain ⟨first, hfirst⟩ : ∃ first, cohort.toList.head? = some first := by
    cases hl : cohort.toList with
    | nil =>
      have ha' : a ∈ cohort.toList := ha
      rw [hl] at ha'
      exact absurd ha' List.not_mem_nil
    | cons first _ => exact ⟨first, rfl⟩
  have hf : first ∈ cohort := List.mem_of_mem_head? (by rw [hfirst]; rfl)
  have hneeds := mem_actorNeeds hg hcoh h (hsub cohort hmem first hf)
  intro x
  unfold cohortCut
  rw [hfirst, mem_exposeActors hg h
    (fun b hb => Required.actors hsub ((hneeds b).mp hb))
    (fun b hb => Exposed.actors hsub (a := a)
      (Or.inr ⟨cohort, hmem, ha, (mem_exposedActors hg hcoh h).mp hb⟩))]
  refine Selects.congr (fun b => ?_) (fun b => ?_) x
  · rw [hneeds b]
    exact ⟨Required.peer hsub hmem ha hf, Required.peer hsub hmem hf ha⟩
  · rw [mem_exposedActors hg hcoh h]
    constructor
    · exact fun hb => Or.inr ⟨cohort, hmem, ha, hb⟩
    · rintro (hb | ⟨cohort', hmem', ha', hb⟩)
      · exact Or.inr ⟨a, ha, hb⟩
      · obtain rfl := cohort_unique hg hcoh h hmem hmem' ha ha'
        exact hb

end

theorem get_foldl_insert {α β : Type*} [LinearOrder α] (l : List α) (b : β) (m : BTreeMap α β)
    (a : α) :
    (l.foldl (fun m x => m.insert x b) m).get a = if a ∈ l then some b else m.get a := by
  induction l generalizing m with
  | nil => simp
  | cons x l ih =>
    rw [List.foldl_cons, ih, BTreeMap.get_insert]
    by_cases hx : a = x
    · simp [hx]
    · simp [hx]

section
variable (hg : Groups g constraints.families familyByActor)
  (hcoh : Groups g (constraints.cohorts.map BTreeSet.toList) cohortByActor)
  (h : Located g constraints.families familyByActor f locations)
include hg hcoh h

/-- one actor of the planning loop: published cuts stay, and the actor gets one -/
theorem planStep_isCut {cuts : BTreeMap Actor Cut} {actor : Actor} (hactor : actor ∈ g.actors)
    (hcuts : ∀ a cut, cuts.get a = some cut → IsCut g constraints familyByActor locations a cut) :
    let cuts' := planStep g constraints familyByActor locations
      (needsGraph g constraints.cohorts).needs cohortByActor cuts actor
    (∀ a cut, cuts'.get a = some cut → IsCut g constraints familyByActor locations a cut) ∧
      (cuts'.get actor).isSome = true ∧
      ∀ a, (cuts.get a).isSome = true → (cuts'.get a).isSome = true := by
  intro cuts'
  by_cases hcon : cuts.contains actor = true
  · have heq : cuts' = cuts := by
      show planStep g constraints familyByActor locations _ cohortByActor cuts actor = cuts
      unfold planStep
      rw [if_pos hcon]
    rw [heq]
    exact ⟨hcuts, hcon, fun a ha => ha⟩
  · cases hk : cohortByActor.get actor with
    | none =>
      have heq : cuts' = cuts.insert actor (standaloneCut g constraints familyByActor locations
          (needsGraph g constraints.cohorts).needs actor) := by
        show planStep g constraints familyByActor locations _ cohortByActor cuts actor = _
        unfold planStep
        rw [if_neg hcon, hk]
      rw [heq]
      refine ⟨fun a cut ha => ?_, by rw [BTreeMap.get_insert_self]; rfl, fun a ha => ?_⟩
      · rw [BTreeMap.get_insert] at ha
        split_ifs at ha with he
        · obtain rfl := Option.some.inj ha
          rw [he]
          exact standaloneCut_isCut hg hcoh h hactor hk
        · exact hcuts a cut ha
      · rw [BTreeMap.get_insert]
        split_ifs
        · rfl
        · exact ha
    | some k =>
      obtain ⟨group, hgroup, _⟩ := hcoh.get_iff.mp hk
      rw [List.getElem?_map] at hgroup
      obtain ⟨cohort, hcohort, rfl⟩ := Option.map_eq_some_iff.mp hgroup
      have heq : cuts' = cohort.toList.foldl (fun cuts member => cuts.insert member
          (cohortCut g constraints familyByActor locations
            (needsGraph g constraints.cohorts).needs cohort)) cuts := by
        show planStep g constraints familyByActor locations _ cohortByActor cuts actor = _
        unfold planStep
        rw [if_neg hcon, hk]
        simp only [hcohort, Option.getD_some]
      rw [heq]
      have hmem := List.mem_of_getElem? hcohort
      refine ⟨fun a cut ha => ?_, ?_, fun a ha => ?_⟩
      · rw [get_foldl_insert] at ha
        split_ifs at ha with he
        · obtain rfl := Option.some.inj ha
          exact cohortCut_isCut hg hcoh h hmem he
        · exact hcuts a cut ha
      · rw [get_foldl_insert, if_pos (BTreeSet.mem_toList.mpr ((mem_cohort_iff hg hcoh h hcohort).mp hk))]
        rfl
      · rw [get_foldl_insert]
        split_ifs
        · rfl
        · exact ha

theorem foldl_planStep (l : List Actor) (hl : ∀ a ∈ l, a ∈ g.actors) (cuts : BTreeMap Actor Cut)
    (hcuts : ∀ a cut, cuts.get a = some cut → IsCut g constraints familyByActor locations a cut) :
    let cuts' := l.foldl (planStep g constraints familyByActor locations
      (needsGraph g constraints.cohorts).needs cohortByActor) cuts
    (∀ a cut, cuts'.get a = some cut → IsCut g constraints familyByActor locations a cut) ∧
      ∀ a, a ∈ l ∨ (cuts.get a).isSome = true → (cuts'.get a).isSome = true := by
  induction l generalizing cuts with
  | nil => exact ⟨hcuts, fun a ha => ha.resolve_left List.not_mem_nil⟩
  | cons actor l ih =>
    obtain ⟨h1, h2, h3⟩ := planStep_isCut hg hcoh h (hl actor List.mem_cons_self) hcuts
    obtain ⟨ih1, ih2⟩ := ih (fun a ha => hl a (List.mem_cons_of_mem _ ha)) _ h1
    refine ⟨ih1, fun a ha => ih2 a ?_⟩
    rcases ha with ha | ha
    · rcases List.mem_cons.mp ha with rfl | ha
      · exact Or.inr h2
      · exact Or.inl ha
    · exact Or.inr (h3 a ha)

end

/-- **An accepted plan** carries the selected cut for every actor. -/
theorem commitmentPlan_planned {plan : CommitmentPlan Actor}
    (h : commitmentPlan g constraints = .ok plan) :
    ∃ familyByActor locations, Planned g constraints plan familyByActor locations := by
  unfold commitmentPlan at h
  cases hf : validateFamilies g constraints.families with
  | error e => rw [hf] at h; cases h
  | ok familyByActor =>
    rw [hf] at h
    cases hc : validateCohorts g constraints.cohorts with
    | error e => rw [hc] at h; cases h
    | ok cohortByActor =>
      rw [hc] at h
      obtain rfl := Except.ok.inj h
      obtain ⟨hg, hnd⟩ := validateFamilies_groups hf
      have hcoh := validateCohorts_groups hc
      have hloc := buildCommitmentForest_located hg hnd
      obtain ⟨h1, h2⟩ := foldl_planStep hg hcoh hloc g.actors.toList (fun a ha => ha) ∅
        (fun a cut ha => by rw [BTreeMap.get_empty] at ha; cases ha)
      refine ⟨familyByActor, _, hg, cohorts_subset hg hcoh hloc, fun c hc c' hc' a ha ha' => ?_, hloc,
        fun a ha => ?_⟩
      · exact cohort_unique hg hcoh hloc hc hc' ha ha'
      · obtain ⟨cut, hcut⟩ := Option.isSome_iff_exists.mp (h2 a (Or.inl ha))
        exact ⟨cut, hcut, h1 a cut hcut⟩

end

/-! ## the guarantees -/

/-- a node covers the actors whose leaves lie at it or below it -/
def CommitmentForest.Covers (f : CommitmentForest Actor) (p : NodePath) (x : Actor) : Prop :=
  ∃ q : NodePath, q.startsWith p = true ∧ f.node q = some (.leaf x)

/-- the actor's leaf is selected -/
def CommitmentForest.Carries (f : CommitmentForest Actor) (cut : Cut) (x : Actor) : Prop :=
  ∃ p ∈ cut, f.node p = some (.leaf x)

/-- what holds of the planned cut of one actor -/
structure PlannedCut (g : RouteGraph Actor) (constraints : CommitmentConstraints Actor)
    (plan : CommitmentPlan Actor) (a : Actor) (cut : Cut) : Prop where
  valid : plan.forest.isValidCut cut = true
  /-- all members of one cohort have the same cut -/
  shared : ∀ cohort ∈ constraints.cohorts, a ∈ cohort → ∀ b ∈ cohort, plan.cuts.get b = some cut
  consumes : ∀ b, (b = a ∨ ∃ cohort ∈ constraints.cohorts, a ∈ cohort ∧ b ∈ cohort) →
    ∀ x ∈ g.directConsumes b, plan.forest.Carries cut x
  members : ∀ cohort ∈ constraints.cohorts, a ∈ cohort → ∀ b ∈ cohort, plan.forest.Carries cut b
  /-- every needed actor is covered by one node: its own leaf or its family's branch -/
  covered : ∀ x ∈ (needsGraph g constraints.cohorts).needs.getD a, ∃ p ∈ cut,
    (plan.forest.node p = some (.leaf x) ∨ ∃ family ∈ constraints.families, x ∈ family ∧
      plan.forest.node p = some (.branch (family.map .leaf))) ∧
    ∀ q ∈ cut, plan.forest.Covers q x → q = p
  /-- no family is packed and opened at once -/
  unmixed : ∀ family ∈ constraints.families,
    (∃ p ∈ cut, plan.forest.node p = some (.branch (family.map .leaf))) →
      ∀ x ∈ family, ¬ plan.forest.Carries cut x
  /-- no family is opened in part -/
  whole : ∀ family ∈ constraints.families, (∃ x ∈ family, plan.forest.Carries cut x) →
    ∀ y ∈ family, plan.forest.Carries cut y
  /-- every touched root contains a needed actor or a member of the own cohort -/
  related : ∀ p ∈ cut, ∃ q x, q.splitRoot.1 = p.splitRoot.1 ∧ plan.forest.node q = some (.leaf x) ∧
    (x ∈ (needsGraph g constraints.cohorts).needs.getD a ∨
      ∃ cohort ∈ constraints.cohorts, a ∈ cohort ∧ x ∈ cohort)

theorem NodePath.splitRoot_child (p : NodePath) (i : Nat) :
    (p.child i).splitRoot.1 = p.splitRoot.1 := by
  obtain ⟨l, hl⟩ := p
  cases l with
  | nil => exact absurd rfl hl
  | cons r l => rfl

namespace Planned
variable {g : RouteGraph Actor} {constraints : CommitmentConstraints Actor}
  {plan : CommitmentPlan Actor} {familyByActor : BTreeMap Actor Nat}
  {locations : CommitmentLocations Actor} {a : Actor} {cut : Cut}
  (h : Planned g constraints plan familyByActor locations)
include h

theorem mem_needs (ha : a ∈ g.actors) (x : Actor) :
    x ∈ (needsGraph g constraints.cohorts).needs.getD a ↔ Required g constraints.cohorts a x := by
  refine RouteGraph.mem_needs ?_ x
  rw [(needsGraph_spec constraints.cohorts h.cohorts).1]
  exact ha

theorem isValidCut (hcut : IsCut g constraints familyByActor locations a cut) :
    plan.forest.isValidCut cut = true := by
  have hn := fun x => Required.actors (a := a) (x := x) h.cohorts
  have he := fun x => Exposed.actors (a := a) (x := x) h.cohorts
  have hset : cut.toSet = {x | Selects constraints.families familyByActor locations
      (Required g constraints.cohorts a) (Exposed g constraints.cohorts a) x} :=
    Set.ext hcut
  refine CommitmentForest.isValidCut_iff.mpr ⟨fun p hp => ?_, ?_⟩
  · exact Selects.node h.families h.located hn he ((hcut p).mp hp)
  · rw [hset]
    exact Selects.valid h.families h.located hn he

theorem carries_iff (hcut : IsCut g constraints familyByActor locations a cut) {x : Actor}
    (hx : x ∈ g.actors) :
    plan.forest.Carries cut x ↔ locations.actorPath x ∈ cut := by
  constructor
  · rintro ⟨p, hp, hnode⟩
    rw [← h.located.leaf_unique hnode]
    exact hp
  · intro hp
    exact ⟨_, hp, h.located.leaf_node h.families hx⟩

theorem carries_exposed (hcut : IsCut g constraints familyByActor locations a cut) {x : Actor}
    (hx : Exposed g constraints.cohorts a x) : plan.forest.Carries cut x :=
  (h.carries_iff hcut (Exposed.actors h.cohorts hx)).mpr
    ((hcut _).mpr (Selects.leaf h.families hx))

theorem shared (hcut : IsCut g constraints familyByActor locations a cut)
    {cohort : BTreeSet Actor} (hmem : cohort ∈ constraints.cohorts) (ha : a ∈ cohort) {b : Actor}
    (hb : b ∈ cohort) : plan.cuts.get b = some cut := by
  obtain ⟨cut', hget, hcut'⟩ := h.cuts b (h.cohorts cohort hmem b hb)
  rw [hget]
  congr 1
  have hexp : ∀ {m n x : Actor}, m ∈ cohort → n ∈ cohort → Exposed g constraints.cohorts m x →
      Exposed g constraints.cohorts n x := by
    rintro m n x hm hn (hx | ⟨c, hc, hmc, hx⟩)
    · exact Or.inr ⟨cohort, hmem, hn, Or.inr ⟨m, hm, hx⟩⟩
    · obtain rfl := h.disjoint c hc cohort hmem m hmc hm
      exact Or.inr ⟨c, hc, hn, hx⟩
  refine BTreeSet.ext_mem fun x => ?_
  rw [hcut x, hcut' x]
  exact Selects.congr
    (fun y => ⟨Required.peer h.cohorts hmem ha hb, Required.peer h.cohorts hmem hb ha⟩)
    (fun y => ⟨hexp hb ha, hexp ha hb⟩) x

theorem covered (hcut : IsCut g constraints familyByActor locations a cut) {x : Actor}
    (hx : Required g constraints.cohorts a x) :
    ∃ p ∈ cut, (plan.forest.node p = some (.leaf x) ∨ ∃ family ∈ constraints.families, x ∈ family ∧
        plan.forest.node p = some (.branch (family.map .leaf))) ∧
      ∀ q ∈ cut, plan.forest.Covers q x → q = p := by
  have hxa : x ∈ g.actors := Required.actors h.cohorts hx
  have hleaf := h.located.leaf_node h.families hxa
  have hvalid := (CommitmentForest.isValidCut_iff.mp (h.isValidCut hcut)).2
  have hsome : (plan.forest.node (locations.actorPath x)).isSome = true := by
    rw [hleaf]
    rfl
  -- two covering nodes are both ancestors of the leaf
  have hunique : ∀ p ∈ cut, plan.forest.branching.Anc p (locations.actorPath x) →
      ∀ q ∈ cut, plan.forest.Covers q x → q = p := by
    rintro p hp hanc q hq ⟨l, hl, hnode⟩
    obtain rfl := h.located.leaf_unique hnode
    have hanc' := (CommitmentForest.anc_iff hsome).mpr (NodePath.startsWith_iff.mp hl)
    rcases hanc.total hanc' with hpq | hqp
    · exact (hvalid p hp q hq hpq).symm
    · exact hvalid q hq p hp hqp
  have hcover : Selects constraints.families familyByActor locations
      (Required g constraints.cohorts a) (Exposed g constraints.cohorts a) (locations.actorPath x) ∨
      ∃ k, familyByActor.get x = some k ∧ Selects constraints.families familyByActor locations
        (Required g constraints.cohorts a) (Exposed g constraints.cohorts a)
        (locations.familyPath k) := Selects.covers h.families hx
  rcases hcover with hs | ⟨k, hk, hs⟩
  · exact ⟨_, (hcut _).mpr hs, Or.inl hleaf, hunique _ ((hcut _).mpr hs) (Branching.Anc.refl _)⟩
  · obtain ⟨fam, hf, hmem⟩ := h.families.get_iff.mp hk
    refine ⟨_, (hcut _).mpr hs, Or.inr ⟨fam, List.mem_of_getElem? hf, hmem,
      h.located.branch_node hf⟩, hunique _ ((hcut _).mpr hs) ?_⟩
    exact Branching.Anc.kid ((h.located.mem_kids hf).mpr ⟨x, hmem, rfl⟩)

theorem branch_unique {fam : List Actor} {k : Nat} (hf : constraints.families[k]? = some fam)
    {p : NodePath} (hp : plan.forest.node p = some (.branch (fam.map .leaf))) :
    p = locations.familyPath k := by
  rcases h.located.node_cases hp with ⟨_, _, _, hn, _⟩ | ⟨l, fam', hl, hn, rfl⟩ | ⟨_, _, _, _, _, hn, _⟩
  · cases hn
  · have hmap : fam.map CommitmentNode.leaf = fam'.map CommitmentNode.leaf := by
      injection hn
    have hfam : fam = fam' :=
      List.map_injective_iff.mpr (fun x y hxy => by injection hxy) hmap
    subst hfam
    obtain ⟨x, hx⟩ := List.exists_mem_of_ne_nil fam (h.families.nonempty hf)
    rw [h.families.unique hf hl hx hx]
  · cases hn

theorem unmixed (hcut : IsCut g constraints familyByActor locations a cut) {fam : List Actor}
    (hmem : fam ∈ constraints.families)
    (hp : ∃ p ∈ cut, plan.forest.node p = some (.branch (fam.map .leaf))) :
    ∀ x ∈ fam, ¬ plan.forest.Carries cut x := by
  obtain ⟨p, hp, hnode⟩ := hp
  obtain ⟨k, hf⟩ := List.mem_iff_getElem?.mp hmem
  intro x hx hcarry
  have hxa := h.families.actors hf x hx
  have hq := (h.carries_iff hcut hxa).mp hcarry
  rw [h.branch_unique hf hnode] at hp
  have hvalid := (CommitmentForest.isValidCut_iff.mp (h.isValidCut hcut)).2
  refine h.located.actorPath_ne_familyPath h.families hxa hf (hvalid _ hp _ hq ?_).symm
  exact Branching.Anc.kid ((h.located.mem_kids hf).mpr ⟨x, hx, rfl⟩)

theorem whole (hcut : IsCut g constraints familyByActor locations a cut) {fam : List Actor}
    (hmem : fam ∈ constraints.families) (hx : ∃ x ∈ fam, plan.forest.Carries cut x) :
    ∀ y ∈ fam, plan.forest.Carries cut y := by
  obtain ⟨x, hx, hcarry⟩ := hx
  obtain ⟨k, hf⟩ := List.mem_iff_getElem?.mp hmem
  intro y hy
  have hxa := h.families.actors hf x hx
  have hs := (hcut _).mp ((h.carries_iff hcut hxa).mp hcarry)
  rw [h.carries_iff hcut (h.families.actors hf y hy), hcut]
  rcases Selects.of_actorPath h.families h.located (fun z => Required.actors h.cohorts)
    (fun z => Exposed.actors h.cohorts) hxa hs with ⟨hnone, _⟩ | ⟨l, fam', hl, hxl, b, hb, hex⟩
  · rw [h.families.get_of_mem hf hx] at hnone
    cases hnone
  · obtain rfl := h.families.unique hf hl hx hxl
    obtain rfl := Option.some.inj (hf.symm.trans hl)
    exact .opened hex (h.families.get_of_mem hf hb) hf hy

theorem family_root {fam : List Actor} {k : Nat} (hf : constraints.families[k]? = some fam)
    {x : Actor} (hx : x ∈ fam) :
    (locations.actorPath x).splitRoot.1 = (locations.familyPath k).splitRoot.1 := by
  obtain ⟨i, hi⟩ := List.mem_iff_getElem?.mp hx
  rw [(h.located.family_nodes hf).2 i x hi, NodePath.splitRoot_child]

theorem related (hcut : IsCut g constraints familyByActor locations a cut) {p : NodePath}
    (hp : p ∈ cut) :
    ∃ q x, q.splitRoot.1 = p.splitRoot.1 ∧ plan.forest.node q = some (.leaf x) ∧
      (Required g constraints.cohorts a x ∨
        ∃ cohort ∈ constraints.cohorts, a ∈ cohort ∧ x ∈ cohort) := by
  have hdemand : ∀ {x}, Required g constraints.cohorts a x ∨ Exposed g constraints.cohorts a x →
      x ∈ g.actors ∧ (Required g constraints.cohorts a x ∨
        ∃ cohort ∈ constraints.cohorts, a ∈ cohort ∧ x ∈ cohort) := fun hx =>
    ⟨hx.elim (Required.actors h.cohorts) (Exposed.actors h.cohorts),
      hx.elim Or.inl (Exposed.required h.cohorts)⟩
  cases (hcut p).mp hp with
  | @standalone x _ hx =>
    obtain ⟨hxa, hx⟩ := hdemand hx
    exact ⟨_, x, rfl, h.located.leaf_node h.families hxa, hx⟩
  | @packed x k hx hk _ =>
    obtain ⟨fam, hf, hmem⟩ := h.families.get_iff.mp hk
    obtain ⟨hxa, hx⟩ := hdemand (Or.inl hx)
    exact ⟨_, x, h.family_root hf hmem, h.located.leaf_node h.families hxa, hx⟩
  | @opened k fam x b hb hk hf hx =>
    obtain ⟨fam', hf', hmem⟩ := h.families.get_iff.mp hk
    obtain rfl := Option.some.inj (hf.symm.trans hf')
    obtain ⟨hba, hb⟩ := hdemand (Or.inr hb)
    exact ⟨_, b, (h.family_root hf hmem).trans (h.family_root hf hx).symm,
      h.located.leaf_node h.families hba, hb⟩

end Planned

/-- **The cuts of a plan.**  Every actor of the graph has a valid cut, shared by its cohort, that
carries what is used directly, covers what is needed and touches nothing unrelated. -/
theorem commitmentPlan_cuts (g : RouteGraph Actor) (constraints : CommitmentConstraints Actor)
    (plan : CommitmentPlan Actor) (h : commitmentPlan g constraints = .ok plan) :
    ∀ a ∈ g.actors, ∃ cut, plan.cuts.get a = some cut ∧ PlannedCut g constraints plan a cut := by
  obtain ⟨familyByActor, locations, hp⟩ := commitmentPlan_planned h
  intro a ha
  obtain ⟨cut, hget, hcut⟩ := hp.cuts a ha
  refine ⟨cut, hget, hp.isValidCut hcut, ?_, ?_, ?_, ?_, ?_, ?_, ?_⟩
  · intro cohort hmem hac b hb
    exact hp.shared hcut hmem hac hb
  · rintro b (rfl | ⟨cohort, hmem, hac, hb⟩) x hx
    · exact hp.carries_exposed hcut (Or.inl hx)
    · exact hp.carries_exposed hcut (Or.inr ⟨cohort, hmem, hac, Or.inr ⟨b, hb, hx⟩⟩)
  · intro cohort hmem hac b hb
    exact hp.carries_exposed hcut (Or.inr ⟨cohort, hmem, hac, Or.inl hb⟩)
  · intro x hx
    exact hp.covered hcut ((hp.mem_needs ha x).mp hx)
  · exact fun family hmem => hp.unmixed hcut hmem
  · exact fun family hmem => hp.whole hcut hmem
  · intro p hpc
    obtain ⟨q, x, hroot, hnode, hx⟩ := hp.related hcut hpc
    exact ⟨q, x, hroot, hnode, hx.imp_left (hp.mem_needs ha x).mpr⟩

/-- `A` emits the cohort of `C` and `D`, `C` emits `B`, and `D` consumes `A` -/
def sampleGraph : RouteGraph String :=
  (((RouteGraph.empty.addEmit "A" "C").addEmit "C" "B").addConsume "D" "A").addActor "E"

def sampleConstraints : CommitmentConstraints String :=
  ⟨[["B", "A"]], [BTreeSet.ofList ["D", "C"]]⟩

theorem sample_accepted : (commitmentPlan sampleGraph sampleConstraints).isOk = true := by
  decide +kernel

theorem commitmentPlan_cuts_sample :
    ∃ plan, commitmentPlan sampleGraph sampleConstraints = .ok plan ∧
      ∀ a ∈ sampleGraph.actors, ∃ cut, plan.cuts.get a = some cut ∧
        PlannedCut sampleGraph sampleConstraints plan a cut := by
  obtain ⟨plan, h⟩ := Fallible.exists_ok_of_isOk sample_accepted
  exact ⟨plan, h, commitmentPlan_cuts sampleGraph sampleConstraints plan h⟩

/-- **Every real route is derivable**: the target's cut follows from the source's by retaining,
opening, packing and dropping. -/
theorem commitmentPlan_routes (g : RouteGraph Actor) (constraints : CommitmentConstraints Actor)
    (plan : CommitmentPlan Actor) (h : commitmentPlan g constraints = .ok plan)
    (source target : Actor) (hemit : target ∈ g.emitTargets source) :
    ∃ transition, plan.cutTransition source target = .ok transition := by
  obtain ⟨familyByActor, locations, hp⟩ := commitmentPlan_planned h
  obtain ⟨hs, ht⟩ := RouteGraph.emitTargets_actors hemit
  obtain ⟨cut, hget, hcut⟩ := hp.cuts source hs
  obtain ⟨cut', hget', hcut'⟩ := hp.cuts target ht
  have hset : cut.toSet = {x | Selects constraints.families familyByActor locations
      (Required g constraints.cohorts source) (Exposed g constraints.cohorts source) x} :=
    Set.ext hcut
  have hsome : (plan.forest.transition cut cut').isSome = true := by
    refine (CommitmentForest.transition_isSome (hp.isValidCut hcut) (hp.isValidCut hcut')).mpr ?_
    intro p hpc
    rw [hset]
    exact Selects.derivable hp.families hp.located
      (fun x hx => Required.of_emits hp.cohorts hemit hx) ((hcut' p).mp hpc)
  obtain ⟨tr, htr⟩ := Option.isSome_iff_exists.mp hsome
  refine ⟨tr, ?_⟩
  unfold CommitmentPlan.cutTransition
  simp only [hget, hget', htr]

theorem commitmentPlan_routes_sample :
    ∃ plan, commitmentPlan sampleGraph sampleConstraints = .ok plan ∧
      ∃ transition, plan.cutTransition "A" "C" = .ok transition := by
  obtain ⟨plan, h⟩ := Fallible.exists_ok_of_isOk sample_accepted
  exact ⟨plan, h, commitmentPlan_routes sampleGraph sampleConstraints plan h "A" "C" (by decide)⟩

/-- `D` opens the family it consumes from, for `C` as well; a separate actor carries nothing -/
example :
    (commitmentPlan sampleGraph sampleConstraints).toOption.map (fun plan =>
      ["A", "C", "E"].map fun a => (plan.cuts.get a).map BTreeSet.toList)
      = some [some [NodePath.root 0, NodePath.root 1, NodePath.root 2],
        some [(NodePath.root 0).child 0, (NodePath.root 0).child 1, NodePath.root 1,
          NodePath.root 2], some []] := by
  decide +kernel

end Argent.Routing
