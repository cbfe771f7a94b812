import Argent.Routing.PlanSound

/-!
# Declaration order

A commitment plan does not depend on the order in which families and cohorts are supplied.

* `Accepted`             what the validation of groups asks, without their order;
* `Matched`              the two indices of one group under two orders;
* `BuildAgree`           two forest loops that record the same paths;
* `commitmentPlan_perm`  **permuted families and cohorts give the same plan**.
-/

set_option linter.unusedSectionVars false

namespace Argent.Routing
variable {Actor : Type*} [LinearOrder Actor] {g : RouteGraph Actor}

/-! ## acceptance -/

/-- nonempty groups of graph actors, no actor twice and none of them in `before` -/
def Accepted (g : RouteGraph Actor) (groups : List (List Actor)) (before : BTreeMap Actor Nat) :
    Prop :=
  (∀ group ∈ groups, group ≠ [] ∧ ∀ a ∈ group, a ∈ g.actors ∧ before.get a = none) ∧
    groups.flatten.Nodup

theorem accepted_nil (m : BTreeMap Actor Nat) : Accepted g [] m :=
  ⟨fun _ h => absurd h List.not_mem_nil, List.nodup_nil⟩

theorem accepted_cons {k : Nat} {group : List Actor} {groups : List (List Actor)}
    {m m' : BTreeMap Actor Nat} (h : GroupIndexed g k group m m') :
    Accepted g (group :: groups) m ↔ group ≠ [] ∧ group.Nodup ∧ Accepted g groups m' := by
  have hget : ∀ a, m'.get a = none ↔ a ∉ group ∧ m.get a = none := by
    intro a
    rw [h.get]
    by_cases ha : a ∈ group
    · simp [ha]
    · simp [ha]
  unfold Accepted
  rw [List.forall_mem_cons, List.flatten_cons, List.nodup_append]
  constructor
  · rintro ⟨⟨⟨hne, _⟩, hall⟩, hnd, hnds, hdisj⟩
    refine ⟨hne, hnd, fun x hx => ⟨(hall x hx).1, fun a ha => ?_⟩, hnds⟩
    obtain ⟨hactor, hnone⟩ := (hall x hx).2 a ha
    have hnot : a ∉ group := fun hmem => hdisj a hmem a (List.mem_flatten.mpr ⟨x, hx, ha⟩) rfl
    exact ⟨hactor, (hget a).mpr ⟨hnot, hnone⟩⟩
  · rintro ⟨hne, hnd, hall, hnds⟩
    refine ⟨⟨⟨hne, fun a ha => ⟨h.actors a ha, h.fresh a ha⟩⟩, fun x hx => ⟨(hall x hx).1,
      fun a ha => ?_⟩⟩, hnd, hnds, fun a ha b hb hab => ?_⟩
    · obtain ⟨hactor, hnone⟩ := (hall x hx).2 a ha
      exact ⟨hactor, ((hget a).mp hnone).2⟩
    · obtain ⟨x, hx, hbx⟩ := List.mem_flatten.mp hb
      exact ((hget b).mp ((hall x hx).2 b hbx).2).1 (hab ▸ ha)

theorem Accepted.perm {groups groups' : List (List Actor)} {m : BTreeMap Actor Nat}
    (h : Accepted g groups m) (hperm : groups.Perm groups') : Accepted g groups' m :=
  ⟨fun x hx => h.1 x (hperm.mem_iff.mpr hx), hperm.flatten.nodup_iff.mp h.2⟩

/-- what the check of one group asks of its members -/
def Fresh (g : RouteGraph Actor) (group : List Actor) (before : BTreeMap Actor Nat) : Prop :=
  (∀ a ∈ group, a ∈ g.actors ∧ before.get a = none) ∧ group.Nodup

theorem fresh_nil (m : BTreeMap Actor Nat) : Fresh g [] m :=
  ⟨fun _ h => absurd h List.not_mem_nil, List.nodup_nil⟩

theorem fresh_cons {a : Actor} {group : List Actor} {m : BTreeMap Actor Nat} (k : Nat) :
    Fresh g (a :: group) m ↔ a ∈ g.actors ∧ m.get a = none ∧ Fresh g group (m.insert a k) := by
  have hget : ∀ x, (m.insert a k).get x = none ↔ x ≠ a ∧ m.get x = none := by
    intro x
    rw [BTreeMap.get_insert]
    by_cases hx : x = a
    · simp [hx]
    · simp [hx]
  unfold Fresh
  rw [List.forall_mem_cons, List.nodup_cons]
  constructor
  · rintro ⟨⟨⟨ha, hnone⟩, hall⟩, hnot, hnd⟩
    refine ⟨ha, hnone, fun x hx => ⟨(hall x hx).1, ?_⟩, hnd⟩
    exact (hget x).mpr ⟨ne_of_mem_of_not_mem hx hnot, (hall x hx).2⟩
  · rintro ⟨ha, hnone, hall, hnd⟩
    refine ⟨⟨⟨ha, hnone⟩, fun x hx => ⟨(hall x hx).1, ((hget x).mp (hall x hx).2).2⟩⟩, ?_, hnd⟩
    exact fun hmem => ((hget a).mp (hall a hmem).2).1 rfl

theorem contains_eq_false {m : BTreeMap Actor Nat} {a : Actor} :
    ¬ m.contains a = true ↔ m.get a = none := by
  unfold BTreeMap.contains
  rw [Bool.not_eq_true, Option.isSome_eq_false_iff, Option.isNone_iff_eq_none]

/-- the check for repetition decides only which error is reported -/
theorem validateFamily_isOk (k : Nat) (family : List Actor) (members : BTreeSet Actor)
    (m : BTreeMap Actor Nat) (hm : ∀ a ∈ members, m.get a ≠ none) :
    (validateFamily g k family members m).isOk = true ↔ Fresh g family m := by
  induction family generalizing members m with
  | nil => exact ⟨fun _ => fresh_nil m, fun _ => rfl⟩
  | cons a family ih =>
    unfold validateFamily
    rw [fresh_cons k]
    split_ifs with h1 h2 h3
    · exact ⟨fun h => (by cases h), fun h => absurd h.2.1 (hm a h2)⟩
    · exact ⟨fun h => (by cases h), fun h => absurd h3 (contains_eq_false.mpr h.2.1)⟩
    · rw [ih]
      · exact ⟨fun h => ⟨h1, contains_eq_false.mp h3, h⟩, fun h => h.2.2⟩
      · intro x hx
        rw [BTreeMap.get_insert]
        split_ifs with he
        · exact Option.some_ne_none k
        · exact hm x ((BTreeSet.mem_insert.mp hx).resolve_left he)
    · exact ⟨fun h => (by cases h), fun h => absurd h.1 h1⟩

theorem validateCohort_isOk (k : Nat) (cohort : List Actor) (m : BTreeMap Actor Nat) :
    (validateCohort g k cohort m).isOk = true ↔ Fresh g cohort m := by
  induction cohort generalizing m with
  | nil => exact ⟨fun _ => fresh_nil m, fun _ => rfl⟩
  | cons a cohort ih =>
    unfold validateCohort
    rw [fresh_cons k]
    split_ifs with h1 h2
    · exact ⟨fun h => (by cases h), fun h => absurd h2 (contains_eq_false.mpr h.2.1)⟩
    · rw [ih]
      exact ⟨fun h => ⟨h1, contains_eq_false.mp h2, h⟩, fun h => h.2.2⟩
    · exact ⟨fun h => (by cases h), fun h => absurd h.1 h1⟩

theorem accepted_fresh {group : List Actor} {groups : List (List Actor)} {m : BTreeMap Actor Nat}
    (h : Accepted g (group :: groups) m) : Fresh g group m :=
  ⟨(h.1 group List.mem_cons_self).2, h.2.sublist (List.sublist_append_left _ _)⟩

theorem validateFamiliesFrom_isOk (n : Nat) (families : Families Actor) (m : BTreeMap Actor Nat) :
    (validateFamiliesFrom g n families m).isOk = true ↔ Accepted g families m := by
  induction families generalizing n m with
  | nil => exact ⟨fun _ => accepted_nil m, fun _ => rfl⟩
  | cons family families ih =>
    have hfresh := validateFamily_isOk (g := g) n family ∅ m
      (fun a ha => absurd ha (BTreeSet.not_mem_empty a))
    unfold validateFamiliesFrom
    split_ifs with he
    · refine ⟨fun h => (by cases h), fun h => ?_⟩
      exact absurd (List.isEmpty_iff.mp he) (h.1 family List.mem_cons_self).1
    · have hne : family ≠ [] := fun hn => he (List.isEmpty_iff.mpr hn)
      cases h1 : validateFamily g n family ∅ m with
      | error e =>
        rw [h1] at hfresh
        exact ⟨fun h => (by cases h), fun h => (by cases hfresh.mpr (accepted_fresh h))⟩
      | ok m1 =>
        obtain ⟨hindexed, hnd, -⟩ := validateFamily_indexed n family ∅ m m1 h1
        rw [accepted_cons hindexed]
        exact (ih (n + 1) m1).trans ⟨fun h => ⟨hne, hnd, h⟩, fun h => h.2.2⟩

theorem validateCohortsFrom_isOk (n : Nat) (cohorts : Cohorts Actor) (m : BTreeMap Actor Nat) :
    (validateCohortsFrom g n cohorts m).isOk = true ↔
      Accepted g (cohorts.map BTreeSet.toList) m := by
  induction cohorts generalizing n m with
  | nil => exact ⟨fun _ => accepted_nil m, fun _ => rfl⟩
  | cons cohort cohorts ih =>
    have hfresh := validateCohort_isOk (g := g) n cohort.toList m
    rw [List.map_cons]
    unfold validateCohortsFrom
    split_ifs with he
    · refine ⟨fun h => (by cases h), fun h => ?_⟩
      exact absurd (List.isEmpty_iff.mp he) (h.1 cohort.toList List.mem_cons_self).1
    · have hne : cohort.toList ≠ [] := fun hn => he (List.isEmpty_iff.mpr hn)
      cases h1 : validateCohort g n cohort.toList m with
      | error e =>
        rw [h1] at hfresh
        exact ⟨fun h => (by cases h), fun h => (by cases hfresh.mpr (accepted_fresh h))⟩
      | ok m1 =>
        rw [accepted_cons (validateCohort_indexed n cohort.toList m m1 h1)]
        exact (ih (n + 1) m1).trans ⟨fun h => ⟨hne, cohort.nodup, h⟩, fun h => h.2.2⟩

/-! ## one group under two orders -/

/-- the indices of one group in two lists of groups -/
def Matched (groups groups' : List (List Actor)) (k k' : Nat) : Prop :=
  ∃ group, groups[k]? = some group ∧ groups'[k']? = some group

section
variable {groups groups' : List (List Actor)} {index index' : BTreeMap Actor Nat}
  (hg : Groups g groups index) (hg' : Groups g groups' index') (hperm : groups.Perm groups')
include hg hg' hperm

/-- an actor of a group belongs to the same group in both lists -/
theorem matched_of_get {a : Actor} {k : Nat} (ha : index.get a = some k) :
    ∃ k', index'.get a = some k' ∧ Matched groups groups' k k' := by
  obtain ⟨group, hk, hmem⟩ := hg.get_iff.mp ha
  obtain ⟨k', hk'⟩ := List.mem_iff_getElem?.mp (hperm.mem_iff.mp (List.mem_of_getElem? hk))
  exact ⟨k', hg'.get_of_mem hk' hmem, group, hk, hk'⟩

theorem get_eq_none_iff (a : Actor) : index.get a = none ↔ index'.get a = none := by
  constructor
  · intro hnone
    cases ha : index'.get a with
    | none => rfl
    | some k =>
      obtain ⟨k', hk', _⟩ := matched_of_get hg' hg hperm.symm ha
      rw [hnone] at hk'
      cases hk'
  · intro hnone
    cases ha : index.get a with
    | none => rfl
    | some k =>
      obtain ⟨k', hk', _⟩ := matched_of_get hg hg' hperm ha
      rw [hnone] at hk'
      cases hk'

theorem matched_left {k k' l l' : Nat} (hk : Matched groups groups' k k')
    (hl : Matched groups groups' l l') : k = l ↔ k' = l' := by
  obtain ⟨x, hx, hx'⟩ := hk
  obtain ⟨y, hy, hy'⟩ := hl
  obtain ⟨a, ha⟩ := List.exists_mem_of_ne_nil x (hg.nonempty hx)
  constructor
  · rintro rfl
    obtain rfl := Option.some.inj (hx.symm.trans hy)
    exact hg'.unique hx' hy' ha ha
  · rintro rfl
    obtain rfl := Option.some.inj (hx'.symm.trans hy')
    exact hg.unique hx hy ha ha

end

/-! ## the forest -/

/-- two forest loops that built the same roots and recorded the same paths -/
structure BuildAgree (families families' : Families Actor) (build build' : ForestBuild Actor) :
    Prop where
  roots : build.roots = build'.roots
  actorPaths : build.locations.actorPaths = build'.locations.actorPaths
  emitted : ∀ {k k'}, Matched families families' k k' →
    (k ∈ build.emittedFamilies ↔ k' ∈ build'.emittedFamilies)
  familyPaths : ∀ {k k'}, Matched families families' k k' →
    build.locations.familyPaths.get k = build'.locations.familyPaths.get k'

section
variable {families families' : Families Actor} {index index' : BTreeMap Actor Nat}
  (hg : Groups g families index) (hg' : Groups g families' index')
  (hperm : families.Perm families')
include hg hg' hperm

theorem BuildAgree.step {build build' : ForestBuild Actor}
    (h : BuildAgree families families' build build') (actor : Actor) :
    BuildAgree families families' (forestStep families index build actor)
      (forestStep families' index' build' actor) := by
  cases hk : index.get actor with
  | none =>
    have hk' := (get_eq_none_iff hg hg' hperm actor).mp hk
    simp only [forestStep, hk, hk']
    exact ⟨by rw [h.roots], by rw [h.roots, h.actorPaths], h.emitted, h.familyPaths⟩
  | some k =>
    obtain ⟨k', hk', hmatch⟩ := matched_of_get hg hg' hperm hk
    obtain ⟨family, hfam, hfam'⟩ := id hmatch
    by_cases hopen : k ∈ build.emittedFamilies
    · have hopen' := (h.emitted hmatch).mp hopen
      simp only [forestStep, hk, hk', if_pos hopen, if_pos hopen']
      exact h
    · have hopen' : k' ∉ build'.emittedFamilies := fun hm => hopen ((h.emitted hmatch).mpr hm)
      simp only [forestStep, hk, hk', if_neg hopen, if_neg hopen', hfam, hfam', Option.getD_some]
      refine ⟨by rw [h.roots], by rw [h.roots, h.actorPaths], fun hl => ?_, fun hl => ?_⟩
      · show _ ∈ insert k build.emittedFamilies ↔ _ ∈ insert k' build'.emittedFamilies
        rw [BTreeSet.mem_insert, BTreeSet.mem_insert, h.emitted hl,
          matched_left hg hg' hperm hl hmatch]
      · rw [BTreeMap.get_insert, BTreeMap.get_insert, h.familyPaths hl, h.roots,
          if_congr (matched_left hg hg' hperm hl hmatch) rfl rfl]

theorem foldl_forestStep_agree (actors : List Actor) {build build' : ForestBuild Actor}
    (h : BuildAgree families families' build build') :
    BuildAgree families families' (actors.foldl (forestStep families index) build)
      (actors.foldl (forestStep families' index') build') := by
  induction actors generalizing build build' with
  | nil => exact h
  | cons actor actors ih => exact ih (h.step hg hg' hperm actor)

theorem buildCommitmentForest_agree :
    let built := buildCommitmentForest g families index
    let built' := buildCommitmentForest g families' index'
    built.1 = built'.1 ∧ built.2.actorPaths = built'.2.actorPaths ∧
      ∀ {k k'}, Matched families families' k k' →
        built.2.familyPaths.get k = built'.2.familyPaths.get k' := by
  have hstart : BuildAgree families families' (⟨[], ⟨∅, ∅⟩, ∅⟩ : ForestBuild Actor)
      ⟨[], ⟨∅, ∅⟩, ∅⟩ :=
    ⟨rfl, rfl, fun _ => ⟨fun h => absurd h (BTreeSet.not_mem_empty _),
      fun h => absurd h (BTreeSet.not_mem_empty _)⟩, fun _ => rfl⟩
  have h := foldl_forestStep_agree hg hg' hperm g.actors.toList hstart
  exact ⟨congrArg CommitmentForest.mk h.roots, h.actorPaths, h.familyPaths⟩

end

/-! ## the cuts -/

section
variable {families families' : Families Actor} {index index' : BTreeMap Actor Nat}
  {locations locations' : CommitmentLocations Actor} {need exposed : Actor → Prop}

/-- the same nodes are selected, whatever the indices of the families -/
theorem selects_of_perm (hg : Groups g families index) (hg' : Groups g families' index')
    (hperm : families.Perm families') (hactors : locations.actorPaths = locations'.actorPaths)
    (hfamilies : ∀ {k k'}, Matched families families' k k' →
      locations.familyPaths.get k = locations'.familyPaths.get k') {x : NodePath}
    (h : Selects families index locations need exposed x) :
    Selects families' index' locations' need exposed x := by
  have hactor : ∀ a, locations.actorPath a = locations'.actorPath a := by
    intro a
    unfold CommitmentLocations.actorPath
    rw [hactors]
  cases h with
  | standalone hk ha =>
    rw [hactor]
    exact .standalone ((get_eq_none_iff hg hg' hperm _).mp hk) ha
  | @packed a k ha hk hnot =>
    obtain ⟨k', hk', hmatch⟩ := matched_of_get hg hg' hperm hk
    have hpath : locations.familyPath k = locations'.familyPath k' := by
      unfold CommitmentLocations.familyPath
      rw [hfamilies hmatch]
    rw [hpath]
    refine .packed ha hk' fun b hb hbk => ?_
    obtain ⟨l, hl, hback⟩ := matched_of_get hg' hg hperm.symm hbk
    obtain ⟨group, h1, h2⟩ := hback
    exact hnot b hb (((matched_left hg hg' hperm ⟨group, h2, h1⟩ hmatch).mpr rfl) ▸ hl)
  | @opened k fam a b hb hk hf ha =>
    obtain ⟨k', hk', group, h1, h2⟩ := matched_of_get hg hg' hperm hk
    obtain rfl := Option.some.inj (hf.symm.trans h1)
    rw [hactor]
    exact .opened hb hk' h2 ha

end

theorem RouteGraph.Needed.congr {h : RouteGraph Actor} (he : ∀ s t, g.Emits s t ↔ h.Emits s t)
    (hc : ∀ a, g.directConsumes a = h.directConsumes a) (a x : Actor) :
    g.Needed a x ↔ h.Needed a x := by
  have hroutes : g.Routes = h.Routes := by
    unfold RouteGraph.Routes
    rw [funext fun s => funext fun t => propext (he s t)]
  unfold RouteGraph.Needed
  rw [hroutes, funext hc]

section
variable {cohorts cohorts' : Cohorts Actor} (hperm : cohorts.Perm cohorts')
include hperm

theorem exposed_perm (a x : Actor) : Exposed g cohorts a x ↔ Exposed g cohorts' a x := by
  unfold Exposed
  have hmem : ∀ cohort, cohort ∈ cohorts ↔ cohort ∈ cohorts' := fun _ => hperm.mem_iff
  simp only [hmem]

theorem required_perm (hc : ∀ cohort ∈ cohorts, cohort ⊆ g.actors) (a x : Actor) :
    Required g cohorts a x ↔ Required g cohorts' a x := by
  have hmem : ∀ cohort, cohort ∈ cohorts ↔ cohort ∈ cohorts' := fun _ => hperm.mem_iff
  obtain ⟨_, h2, h3⟩ := needsGraph_spec cohorts hc
  obtain ⟨_, h2', h3'⟩ := needsGraph_spec cohorts' fun c h => hc c ((hmem c).mpr h)
  refine RouteGraph.Needed.congr (fun s t => ?_) (fun a => (h2 a).trans (h2' a).symm) a x
  rw [h3, h3']
  simp only [hmem]

end

section
variable {constraints : CommitmentConstraints Actor} {familyByActor cohortByActor : BTreeMap Actor Nat}
  {locations : CommitmentLocations Actor} {needs : BTreeMap Actor (BTreeSet Actor)}

theorem foldl_planStep_get_none (hc : ∀ cohort ∈ constraints.cohorts, cohort ⊆ g.actors) {a : Actor}
    (ha : a ∉ g.actors) (l : List Actor) (hl : ∀ x ∈ l, x ∈ g.actors) (cuts : BTreeMap Actor Cut)
    (hcuts : cuts.get a = none) :
    (l.foldl (planStep g constraints familyByActor locations needs cohortByActor) cuts).get a =
      none := by
  induction l generalizing cuts with
  | nil => exact hcuts
  | cons actor l ih =>
    refine ih (fun x hx => hl x (List.mem_cons_of_mem _ hx)) _ ?_
    have hne : a ≠ actor := fun heq => ha (heq ▸ hl actor List.mem_cons_self)
    unfold planStep
    split_ifs
    · exact hcuts
    · cases cohortByActor.get actor with
      | none => exact (BTreeMap.get_insert_of_ne hne _ _).trans hcuts
      | some k =>
        show ((constraints.cohorts[k]?.getD ∅).toList.foldl _ cuts).get a = none
        rw [get_foldl_insert, if_neg, hcuts]
        cases hk : constraints.cohorts[k]? with
        | none => exact List.not_mem_nil
        | some cohort => exact fun hmem => ha (hc cohort (List.mem_of_getElem? hk) a hmem)

end

theorem commitmentPlan_ok {constraints : CommitmentConstraints Actor} {plan : CommitmentPlan Actor}
    (h : commitmentPlan g constraints = .ok plan) :
    ∃ familyByActor cohortByActor, validateFamilies g constraints.families = .ok familyByActor ∧
      validateCohorts g constraints.cohorts = .ok cohortByActor ∧
      plan.forest = (buildCommitmentForest g constraints.families familyByActor).1 ∧
      (∀ a ∈ g.actors, ∃ cut, plan.cuts.get a = some cut ∧ IsCut g constraints familyByActor
        (buildCommitmentForest g constraints.families familyByActor).2 a cut) ∧
      (∀ a, a ∉ g.actors → plan.cuts.get a = none) ∧
      ∀ cohort ∈ constraints.cohorts, cohort ⊆ g.actors := by
  unfold commitmentPlan at h
  obtain ⟨familyByActor, hf, h⟩ := Fallible.bind_eq_ok.mp h
  obtain ⟨cohortByActor, hc, h⟩ := Fallible.bind_eq_ok.mp h
  obtain rfl := Except.ok.inj h
  obtain ⟨hg, hnd⟩ := validateFamilies_groups hf
  have hcoh := validateCohorts_groups hc
  have hloc := buildCommitmentForest_located hg hnd
  have hsub := cohorts_subset hg hcoh hloc
  obtain ⟨h1, h2⟩ := foldl_planStep hg hcoh hloc g.actors.toList (fun a ha => ha) ∅
    (fun a cut ha => by rw [BTreeMap.get_empty] at ha; cases ha)
  refine ⟨familyByActor, cohortByActor, hf, hc, rfl, fun a ha => ?_, fun a ha => ?_, hsub⟩
  · obtain ⟨cut, hcut⟩ := Option.isSome_iff_exists.mp (h2 a (Or.inl ha))
    exact ⟨cut, hcut, h1 a cut hcut⟩
  · exact foldl_planStep_get_none hsub ha _ (fun x hx => hx) ∅ rfl

/-! ## the plan -/

section
variable {families families' : Families Actor} {cohorts cohorts' : Cohorts Actor}
  (hf : families.Perm families') (hc : cohorts.Perm cohorts')
include hf hc

theorem commitmentPlan_of_perm {plan : CommitmentPlan Actor}
    (h : commitmentPlan g ⟨families, cohorts⟩ = .ok plan) :
    commitmentPlan g ⟨families', cohorts'⟩ = .ok plan := by
  obtain ⟨index, cohortIndex, hfam, hcoh, hforest, hcuts, hnone, hsub⟩ := commitmentPlan_ok h
  -- both orders are accepted
  have hfam' : (validateFamilies g families').isOk = true := by
    refine (validateFamiliesFrom_isOk 0 families' ∅).mpr (Accepted.perm ?_ hf)
    exact (validateFamiliesFrom_isOk 0 families ∅).mp (by rw [← validateFamilies, hfam]; rfl)
  have hcoh' : (validateCohorts g cohorts').isOk = true := by
    refine (validateCohortsFrom_isOk 0 cohorts' ∅).mpr (Accepted.perm ?_ (hc.map _))
    exact (validateCohortsFrom_isOk 0 cohorts ∅).mp (by rw [← validateCohorts, hcoh]; rfl)
  obtain ⟨index', hfam'⟩ := Fallible.exists_ok_of_isOk hfam'
  obtain ⟨cohortIndex', hcoh'⟩ := Fallible.exists_ok_of_isOk hcoh'
  obtain ⟨plan', hplan'⟩ : ∃ plan', commitmentPlan g ⟨families', cohorts'⟩ = .ok plan' := by
    unfold commitmentPlan
    rw [hfam', hcoh']
    exact ⟨_, rfl⟩
  obtain ⟨index'', _, hfam'', _, hforest', hcuts', hnone', _⟩ := commitmentPlan_ok hplan'
  obtain rfl := Except.ok.inj (hfam'.symm.trans hfam'')
  -- the two plans agree
  have hg := (validateFamilies_groups hfam).1
  have hg' := (validateFamilies_groups hfam').1
  obtain ⟨hbuilt, hactors, hfamilies⟩ := buildCommitmentForest_agree hg hg' hf
  rw [hplan']
  refine congrArg Except.ok ?_
  obtain ⟨forest, cuts⟩ := plan
  obtain ⟨forest', cuts'⟩ := plan'
  obtain rfl : forest' = forest := hforest'.trans (hbuilt.symm.trans hforest.symm)
  refine congrArg (CommitmentPlan.mk forest') (BTreeMap.ext_get fun a => ?_)
  by_cases ha : a ∈ g.actors
  · obtain ⟨cut, hcut, hsel⟩ := hcuts a ha
    obtain ⟨cut', hcut', hsel'⟩ := hcuts' a ha
    rw [hcut, hcut']
    refine congrArg some (BTreeSet.ext_mem fun x => ?_)
    rw [hsel x, hsel' x, Selects.congr (fun b => (required_perm hc hsub a b).symm)
      (fun b => (exposed_perm hc a b).symm)]
    constructor
    · refine selects_of_perm hg' hg hf.symm hactors.symm fun hmatch => ?_
      obtain ⟨group, h1, h2⟩ := hmatch
      exact (hfamilies ⟨group, h2, h1⟩).symm
    · exact selects_of_perm hg hg' hf hactors hfamilies
  · rw [hnone a ha, hnone' a ha]

end

/-- **The order of families and cohorts is immaterial.**  Permuting either list leaves the result
of the planner unchanged: it fails for both orders, or returns one forest and one map of cuts. -/
theorem commitmentPlan_perm (g : RouteGraph Actor) {families families' : Families Actor}
    {cohorts cohorts' : Cohorts Actor} (hf : families.Perm families')
    (hc : cohorts.Perm cohorts') :
    (commitmentPlan g ⟨families, cohorts⟩).toOption =
      (commitmentPlan g ⟨families', cohorts'⟩).toOption := by
  cases h : commitmentPlan g ⟨families, cohorts⟩ with
  | ok plan => rw [commitmentPlan_of_perm hf hc h]
  | error e =>
    cases h' : commitmentPlan g ⟨families', cohorts'⟩ with
    | error e' => rfl
    | ok plan' =>
      rw [commitmentPlan_of_perm hf.symm hc.symm h'] at h
      cases h

theorem commitmentPlan_perm_sample :
    ∃ plan,
      (commitmentPlan sampleGraph
        ⟨[["B", "A"], ["E"]], [BTreeSet.ofList ["D", "C"], BTreeSet.ofList ["E"]]⟩).toOption =
          some plan ∧
      (commitmentPlan sampleGraph
        ⟨[["E"], ["B", "A"]], [BTreeSet.ofList ["E"], BTreeSet.ofList ["D", "C"]]⟩).toOption =
          some plan := by
  have haccepted : (commitmentPlan sampleGraph
      ⟨[["B", "A"], ["E"]], [BTreeSet.ofList ["D", "C"], BTreeSet.ofList ["E"]]⟩).isOk = true := by
    decide +kernel
  obtain ⟨plan, h⟩ := Fallible.exists_ok_of_isOk haccepted
  refine ⟨plan, by rw [h]; rfl, ?_⟩
  rw [← commitmentPlan_perm sampleGraph (List.Perm.swap ["E"] ["B", "A"] [])
    (List.Perm.swap (BTreeSet.ofList ["E"]) (BTreeSet.ofList ["D", "C"]) []), h]
  rfl

end Argent.Routing
