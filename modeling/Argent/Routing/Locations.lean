import Argent.Routing.Commitment
import Argent.Routing.ForestSound

/-!
# Validated groups and recorded locations

What `validate_families`, `validate_cohorts` and `build_commitment_forest` establish.

* `Groups`               disjoint nonempty groups of graph actors and the index of every member;
* `validateFamilies_groups`, `validateCohorts_groups`   an accepted list is such a grouping;
* `Located`              the recorded paths lead to the leaves and branches, and nothing else exists;
* `buildCommitmentForest_located`   **the built forest is located**;
* `Located.leaf_unique`  the leaf of an actor lies at its recorded path only.
-/

set_option linter.unusedSectionVars false
set_option linter.unusedVariables false

namespace Argent.Routing
variable {Actor : Type*} [LinearOrder Actor]

/-! ## validated groups -/

/-- Disjoint nonempty groups of graph actors; `index` gives every member its group, counted from
`first`, and agrees with `before` elsewhere. -/
structure GroupsFrom (g : RouteGraph Actor) (first : Nat) (groups : List (List Actor))
    (before index : BTreeMap Actor Nat) : Prop where
  nonempty : ∀ group ∈ groups, group ≠ []
  actors : ∀ group ∈ groups, ∀ a ∈ group, a ∈ g.actors
  fresh : ∀ group ∈ groups, ∀ a ∈ group, before.get a = none
  get_iff : ∀ a k, index.get a = some k ↔
    before.get a = some k ∨ ∃ i group, groups[i]? = some group ∧ a ∈ group ∧ k = first + i

/-- what the check of one group adds to the index -/
structure GroupIndexed (g : RouteGraph Actor) (k : Nat) (group : List Actor)
    (before index : BTreeMap Actor Nat) : Prop where
  actors : ∀ a ∈ group, a ∈ g.actors
  fresh : ∀ a ∈ group, before.get a = none
  get : ∀ a, index.get a = if a ∈ group then some k else before.get a

variable {g : RouteGraph Actor}

theorem GroupIndexed.nil (k : Nat) (m : BTreeMap Actor Nat) : GroupIndexed g k [] m m :=
  ⟨fun _ h => absurd h List.not_mem_nil, fun _ h => absurd h List.not_mem_nil, fun a => by simp⟩

theorem GroupIndexed.cons {k : Nat} {a : Actor} {group : List Actor} {m m' : BTreeMap Actor Nat}
    (ha : a ∈ g.actors) (hm : m.contains a = false)
    (h : GroupIndexed g k group (m.insert a k) m') : GroupIndexed g k (a :: group) m m' := by
  have hm' : m.get a = none := by simpa [BTreeMap.contains] using hm
  refine ⟨?_, ?_, fun x => ?_⟩
  · intro x hx
    rcases List.mem_cons.mp hx with rfl | hx
    · exact ha
    · exact h.actors x hx
  · intro x hx
    rcases List.mem_cons.mp hx with rfl | hx
    · exact hm'
    · have hf := h.fresh x hx
      rw [BTreeMap.get_insert] at hf
      split_ifs at hf
      exact hf
  · rw [h.get, BTreeMap.get_insert]
    by_cases hx : x = a
    · simp [hx]
    · simp [hx]

theorem GroupsFrom.nil (n : Nat) (m : BTreeMap Actor Nat) : GroupsFrom g n [] m m :=
  ⟨fun _ h => absurd h List.not_mem_nil, fun _ h => absurd h List.not_mem_nil,
    fun _ h => absurd h List.not_mem_nil, fun a k => by simp⟩

theorem GroupsFrom.cons {n : Nat} {group : List Actor} {groups : List (List Actor)}
    {m m1 m' : BTreeMap Actor Nat} (hne : group ≠ []) (h1 : GroupIndexed g n group m m1)
    (h : GroupsFrom g (n + 1) groups m1 m') : GroupsFrom g n (group :: groups) m m' := by
  refine ⟨?_, ?_, ?_, fun a k => ?_⟩
  · intro x hx
    rcases List.mem_cons.mp hx with rfl | hx
    · exact hne
    · exact h.nonempty x hx
  · intro x hx
    rcases List.mem_cons.mp hx with rfl | hx
    · exact h1.actors
    · exact h.actors x hx
  · intro x hx a ha
    rcases List.mem_cons.mp hx with rfl | hx
    · exact h1.fresh a ha
    · have hf := h.fresh x hx a ha
      rw [h1.get] at hf
      split_ifs at hf
      exact hf
  · have hshift : (∃ i x, (group :: groups)[i]? = some x ∧ a ∈ x ∧ k = n + i) ↔
        (a ∈ group ∧ k = n) ∨ ∃ i x, groups[i]? = some x ∧ a ∈ x ∧ k = n + 1 + i := by
      constructor
      · rintro ⟨i, x, hx, ha, rfl⟩
        cases i with
        | zero =>
          obtain rfl := Option.some.inj hx
          exact Or.inl ⟨ha, rfl⟩
        | succ i => exact Or.inr ⟨i, x, hx, ha, by omega⟩
      · rintro (⟨ha, rfl⟩ | ⟨i, x, hx, ha, rfl⟩)
        · exact ⟨0, group, rfl, ha, rfl⟩
        · exact ⟨i + 1, x, hx, ha, by omega⟩
    rw [h.get_iff, h1.get, hshift]
    by_cases ha : a ∈ group
    · have hfresh := h1.fresh a ha
      simp only [ha, if_true, hfresh, Option.some.injEq, true_and, reduceCtorEq, false_or]
      rw [eq_comm]
    · simp [ha]

theorem validateFamily_indexed (k : Nat) (family : List Actor) (members : BTreeSet Actor)
    (m m' : BTreeMap Actor Nat) (h : validateFamily g k family members m = .ok m') :
    GroupIndexed g k family m m' ∧ family.Nodup ∧ ∀ a ∈ family, a ∉ members := by
  induction family generalizing members m with
  | nil =>
    obtain rfl : m = m' := Except.ok.inj h
    exact ⟨GroupIndexed.nil k m, List.nodup_nil, fun _ ha => absurd ha List.not_mem_nil⟩
  | cons a family ih =>
    unfold validateFamily at h
    split_ifs at h with h1 h2 h3
    obtain ⟨hi, hnd, hnm⟩ := ih _ _ h
    refine ⟨hi.cons h1 (by simpa using h3), ?_, ?_⟩
    · exact List.nodup_cons.mpr
        ⟨fun ha => hnm a ha (BTreeSet.mem_insert.mpr (Or.inl rfl)), hnd⟩
    · intro x hx
      rcases List.mem_cons.mp hx with rfl | hx
      · exact h2
      · exact fun hm => hnm x hx (BTreeSet.mem_insert.mpr (Or.inr hm))

theorem validateFamiliesFrom_groups (n : Nat) (families : Families Actor)
    (m m' : BTreeMap Actor Nat) (h : validateFamiliesFrom g n families m = .ok m') :
    GroupsFrom g n families m m' ∧ ∀ family ∈ families, family.Nodup := by
  induction families generalizing n m with
  | nil =>
    obtain rfl : m = m' := Except.ok.inj h
    exact ⟨GroupsFrom.nil n m, fun _ ha => absurd ha List.not_mem_nil⟩
  | cons family families ih =>
    unfold validateFamiliesFrom at h
    split_ifs at h with he
    cases h1 : validateFamily g n family ∅ m with
    | error e => rw [h1] at h; cases h
    | ok m1 =>
      rw [h1] at h
      obtain ⟨hi, hnd, -⟩ := validateFamily_indexed n family ∅ m m1 h1
      obtain ⟨hg, hnds⟩ := ih (n + 1) m1 h
      refine ⟨GroupsFrom.cons (fun hn => he (by rw [hn]; rfl)) hi hg, fun x hx => ?_⟩
      rcases List.mem_cons.mp hx with rfl | hx
      · exact hnd
      · exact hnds x hx

theorem validateCohort_indexed (k : Nat) (cohort : List Actor) (m m' : BTreeMap Actor Nat)
    (h : validateCohort g k cohort m = .ok m') : GroupIndexed g k cohort m m' := by
  induction cohort generalizing m with
  | nil =>
    obtain rfl : m = m' := Except.ok.inj h
    exact GroupIndexed.nil k m
  | cons a cohort ih =>
    unfold validateCohort at h
    split_ifs at h with h1 h2
    exact (ih _ h).cons h1 (by simpa using h2)

theorem validateCohortsFrom_groups (n : Nat) (cohorts : Cohorts Actor) (m m' : BTreeMap Actor Nat)
    (h : validateCohortsFrom g n cohorts m = .ok m') :
    GroupsFrom g n (cohorts.map BTreeSet.toList) m m' := by
  induction cohorts generalizing n m with
  | nil =>
    obtain rfl : m = m' := Except.ok.inj h
    exact GroupsFrom.nil n m
  | cons cohort cohorts ih =>
    unfold validateCohortsFrom at h
    split_ifs at h with he
    cases h1 : validateCohort g n cohort.toList m with
    | error e => rw [h1] at h; cases h
    | ok m1 =>
      rw [h1] at h
      exact GroupsFrom.cons (fun hn => he (by rw [hn]; rfl))
        (validateCohort_indexed n cohort.toList m m1 h1) (ih (n + 1) m1 h)

/-- disjoint nonempty groups of graph actors, with the group of every member -/
structure Groups (g : RouteGraph Actor) (groups : List (List Actor))
    (index : BTreeMap Actor Nat) : Prop where
  nonempty : ∀ {k : Nat} {group}, groups[k]? = some group → group ≠ []
  actors : ∀ {k : Nat} {group}, groups[k]? = some group → ∀ a ∈ group, a ∈ g.actors
  get_iff : ∀ {a} {k : Nat}, index.get a = some k ↔ ∃ group, groups[k]? = some group ∧ a ∈ group

theorem GroupsFrom.groups {groups : List (List Actor)} {index : BTreeMap Actor Nat}
    (h : GroupsFrom g 0 groups ∅ index) : Groups g groups index := by
  refine ⟨fun hk => h.nonempty _ (List.mem_of_getElem? hk),
    fun hk => h.actors _ (List.mem_of_getElem? hk), fun {a k} => ?_⟩
  rw [h.get_iff]
  constructor
  · rintro (hn | ⟨i, group, hi, ha, rfl⟩)
    · cases hn
    · rw [Nat.zero_add]
      exact ⟨group, hi, ha⟩
  · rintro ⟨group, hk, ha⟩
    exact Or.inr ⟨k, group, hk, ha, (Nat.zero_add k).symm⟩

theorem validateFamilies_groups {families : Families Actor} {m : BTreeMap Actor Nat}
    (h : validateFamilies g families = .ok m) :
    Groups g families m ∧ ∀ family ∈ families, family.Nodup := by
  obtain ⟨h1, h2⟩ := validateFamiliesFrom_groups 0 families ∅ m h
  exact ⟨h1.groups, h2⟩

theorem validateCohorts_groups {cohorts : Cohorts Actor} {m : BTreeMap Actor Nat}
    (h : validateCohorts g cohorts = .ok m) : Groups g (cohorts.map BTreeSet.toList) m :=
  (validateCohortsFrom_groups 0 cohorts ∅ m h).groups

namespace Groups
variable {groups : List (List Actor)} {index : BTreeMap Actor Nat}

theorem get_of_mem (h : Groups g groups index) {k : Nat} {group : List Actor}
    (hk : groups[k]? = some group) {a : Actor} (ha : a ∈ group) : index.get a = some k :=
  h.get_iff.mpr ⟨group, hk, ha⟩

theorem unique (h : Groups g groups index) {k l : Nat} {group group' : List Actor}
    (hk : groups[k]? = some group) (hl : groups[l]? = some group') {a : Actor} (ha : a ∈ group)
    (ha' : a ∈ group') : k = l :=
  Option.some.inj ((h.get_of_mem hk ha).symm.trans (h.get_of_mem hl ha'))

end Groups

/-! ## recorded locations -/

/-- The recorded paths lead to a root leaf for every standalone actor and to a root branch with
one leaf per member for every family; the forest has no other roots. -/
structure Located (g : RouteGraph Actor) (families : Families Actor)
    (familyByActor : BTreeMap Actor Nat) (f : CommitmentForest Actor)
    (locations : CommitmentLocations Actor) : Prop where
  standalone : ∀ a ∈ g.actors, familyByActor.get a = none → ∃ r,
    locations.actorPaths.get a = some (NodePath.root r) ∧ f.roots[r]? = some (.leaf a)
  family : ∀ (k : Nat) fam, families[k]? = some fam → ∃ r,
    locations.familyPaths.get k = some (NodePath.root r) ∧
      f.roots[r]? = some (.branch (fam.map .leaf)) ∧
      ∀ (i : Nat) a, fam[i]? = some a →
        locations.actorPaths.get a = some ((NodePath.root r).child i)
  root_cases : ∀ (r : Nat) n, f.roots[r]? = some n →
    (∃ a ∈ g.actors, familyByActor.get a = none ∧ n = .leaf a ∧
        locations.actorPaths.get a = some (NodePath.root r)) ∨
      ∃ (k : Nat) (fam : List Actor), families[k]? = some fam ∧ n = .branch (fam.map .leaf) ∧
        locations.familyPaths.get k = some (NodePath.root r)

theorem get_insertChildren (p : NodePath) (i : Nat) (family : List Actor) (hnd : family.Nodup)
    (m : BTreeMap Actor NodePath) (a : Actor) :
    (∀ j : Nat, family[j]? = some a → (insertChildren p i family m).get a = some (p.child (i + j))) ∧
      (a ∉ family → (insertChildren p i family m).get a = m.get a) := by
  induction family generalizing i m with
  | nil => exact ⟨fun j h => absurd h (by simp), fun _ => rfl⟩
  | cons b family ih =>
    obtain ⟨hb, hnd'⟩ := List.nodup_cons.mp hnd
    obtain ⟨ih1, ih2⟩ := ih (i + 1) hnd' (m.insert b (p.child i))
    constructor
    · intro j hj
      cases j with
      | zero =>
        obtain rfl := Option.some.inj hj
        show (insertChildren p (i + 1) family (m.insert b (p.child i))).get b = _
        rw [ih2 hb, BTreeMap.get_insert_self, Nat.add_zero]
      | succ j =>
        show (insertChildren p (i + 1) family (m.insert b (p.child i))).get a = _
        rw [ih1 j hj, Nat.add_assoc, Nat.add_comm 1]
    · intro ha
      have hab : a ≠ b := List.ne_of_not_mem_cons ha
      have ha' : a ∉ family := List.not_mem_of_not_mem_cons ha
      show (insertChildren p (i + 1) family (m.insert b (p.child i))).get a = _
      rw [ih2 ha', BTreeMap.get_insert_of_ne hab]

/-- the state of the forest loop after the actors of `done` -/
structure BuildInv (families : Families Actor) (familyByActor : BTreeMap Actor Nat)
    (done : List Actor) (build : ForestBuild Actor) : Prop where
  standalone : ∀ a ∈ done, familyByActor.get a = none → ∃ r,
    build.locations.actorPaths.get a = some (NodePath.root r) ∧ build.roots[r]? = some (.leaf a)
  family : ∀ k ∈ build.emittedFamilies, ∃ fam r, families[k]? = some fam ∧
    build.locations.familyPaths.get k = some (NodePath.root r) ∧
      build.roots[r]? = some (.branch (fam.map .leaf)) ∧
      ∀ (i : Nat) a, fam[i]? = some a →
        build.locations.actorPaths.get a = some ((NodePath.root r).child i)
  emitted : ∀ a ∈ done, ∀ k, familyByActor.get a = some k → k ∈ build.emittedFamilies
  root_cases : ∀ (r : Nat) n, build.roots[r]? = some n →
    (∃ a ∈ done, familyByActor.get a = none ∧ n = .leaf a ∧
        build.locations.actorPaths.get a = some (NodePath.root r)) ∨
      ∃ k ∈ build.emittedFamilies, ∃ fam : List Actor, families[k]? = some fam ∧
        n = .branch (fam.map .leaf) ∧ build.locations.familyPaths.get k = some (NodePath.root r)

section
variable {families : Families Actor} {familyByActor : BTreeMap Actor Nat}

theorem getElem?_snoc {α : Type*} {l : List α} {x y : α} {r : Nat}
    (h : (l ++ [x])[r]? = some y) : l[r]? = some y ∨ r = l.length ∧ y = x := by
  rcases Nat.lt_or_ge r l.length with hr | hr
  · rw [List.getElem?_append_left hr] at h
    exact Or.inl h
  · rw [List.getElem?_append_right hr] at h
    obtain ⟨h0, h1⟩ := List.getElem?_eq_some_iff.mp h
    have h0' : r - l.length = 0 := by simpa using h0
    refine Or.inr ⟨by omega, ?_⟩
    rw [← h1]
    simp

theorem getElem?_snoc_of_some {α : Type*} {l : List α} {x y : α} {r : Nat}
    (h : l[r]? = some y) : (l ++ [x])[r]? = some y := by
  rw [List.getElem?_append_left (List.getElem?_eq_some_iff.mp h).1]
  exact h

theorem BuildInv.step (hg : Groups g families familyByActor)
    (hnd : ∀ family ∈ families, family.Nodup) {done : List Actor} {build : ForestBuild Actor}
    (h : BuildInv families familyByActor done build) {actor : Actor} (hnew : actor ∉ done) :
    BuildInv families familyByActor (done ++ [actor])
      (forestStep families familyByActor build actor) := by
  unfold forestStep
  cases hk : familyByActor.get actor with
  | none =>
    -- members of families keep their paths: `actor` is not one of them
    have hmember : ∀ {k : Nat} {fam : List Actor}, families[k]? = some fam → actor ∉ fam := by
      intro k fam hf ha
      rw [hg.get_of_mem hf ha] at hk
      cases hk
    refine ⟨?_, ?_, ?_, ?_⟩
    · intro a ha hn
      rcases List.mem_append.mp ha with ha | ha
      · obtain ⟨r, h1, h2⟩ := h.standalone a ha hn
        refine ⟨r, ?_, getElem?_snoc_of_some h2⟩
        show (build.locations.actorPaths.insert actor _).get a = _
        rw [BTreeMap.get_insert_of_ne (ne_of_mem_of_not_mem ha hnew)]
        exact h1
      · obtain rfl := List.mem_singleton.mp ha
        exact ⟨build.roots.length, BTreeMap.get_insert_self _ _ _, by simp⟩
    · intro k hke
      obtain ⟨fam, r, h1, h2, h3, h4⟩ := h.family k hke
      refine ⟨fam, r, h1, h2, getElem?_snoc_of_some h3, fun i a hi => ?_⟩
      show (build.locations.actorPaths.insert actor _).get a = _
      rw [BTreeMap.get_insert_of_ne (ne_of_mem_of_not_mem (List.mem_of_getElem? hi) (hmember h1))]
      exact h4 i a hi
    · intro a ha k hak
      rcases List.mem_append.mp ha with ha | ha
      · exact h.emitted a ha k hak
      · obtain rfl := List.mem_singleton.mp ha
        rw [hk] at hak
        cases hak
    · intro r n hr
      rcases getElem?_snoc hr with hr | ⟨rfl, rfl⟩
      · rcases h.root_cases r n hr with ⟨a, ha, h1, h2, h3⟩ | hfam
        · refine Or.inl ⟨a, List.mem_append_left _ ha, h1, h2, ?_⟩
          show (build.locations.actorPaths.insert actor _).get a = _
          rw [BTreeMap.get_insert_of_ne (ne_of_mem_of_not_mem ha hnew)]
          exact h3
        · exact Or.inr hfam
      · exact Or.inl ⟨actor, by simp, hk, rfl, BTreeMap.get_insert_self _ _ _⟩
  | some k =>
    obtain ⟨fam, hf, hmem⟩ := hg.get_iff.mp hk
    by_cases hke : k ∈ build.emittedFamilies
    · simp only [if_pos hke]
      refine ⟨?_, h.family, ?_, ?_⟩
      · intro a ha hn
        rcases List.mem_append.mp ha with ha | ha
        · exact h.standalone a ha hn
        · obtain rfl := List.mem_singleton.mp ha
          rw [hk] at hn
          cases hn
      · intro a ha l hal
        rcases List.mem_append.mp ha with ha | ha
        · exact h.emitted a ha l hal
        · obtain rfl := List.mem_singleton.mp ha
          obtain rfl := Option.some.inj (hk.symm.trans hal)
          exact hke
      · intro r n hr
        rcases h.root_cases r n hr with ⟨a, ha, h1⟩ | hfam
        · exact Or.inl ⟨a, List.mem_append_left _ ha, h1⟩
        · exact Or.inr hfam
    · simp only [if_neg hke]
      have hget : families[k]?.getD [] = fam := by rw [hf]; rfl
      rw [hget]
      have hchild := fun a => get_insertChildren (NodePath.root build.roots.length) 0 fam
        (hnd fam (List.mem_of_getElem? hf)) build.locations.actorPaths a
      have hother : ∀ {l : Nat} {fam' : List Actor}, families[l]? = some fam' → l ≠ k →
          ∀ a ∈ fam', a ∉ fam := fun hl hne a ha ha' => hne (hg.unique hl hf ha ha')
      have hstand : ∀ a, familyByActor.get a = none → a ∉ fam := by
        intro a hn ha
        rw [hg.get_of_mem hf ha] at hn
        cases hn
      have hnek : ∀ l ∈ build.emittedFamilies, l ≠ k := fun l hl e => hke (e ▸ hl)
      refine ⟨?_, ?_, ?_, ?_⟩
      · intro a ha hn
        rcases List.mem_append.mp ha with ha | ha
        · obtain ⟨r, h1, h2⟩ := h.standalone a ha hn
          exact ⟨r, ((hchild a).2 (hstand a hn)).trans h1, getElem?_snoc_of_some h2⟩
        · obtain rfl := List.mem_singleton.mp ha
          rw [hk] at hn
          cases hn
      · intro l hl
        rcases BTreeSet.mem_insert.mp hl with rfl | hl
        · refine ⟨fam, build.roots.length, hf, BTreeMap.get_insert_self _ _ _, by simp, ?_⟩
          intro i a hi
          rw [(hchild a).1 i hi, Nat.zero_add]
        · obtain ⟨fam', r, h1, h2, h3, h4⟩ := h.family l hl
          refine ⟨fam', r, h1, ?_, getElem?_snoc_of_some h3, fun i a hi => ?_⟩
          · exact (BTreeMap.get_insert_of_ne (hnek l hl) _ _).trans h2
          · exact ((hchild a).2 (hother h1 (hnek l hl) a (List.mem_of_getElem? hi))).trans (h4 i a hi)
      · intro a ha l hal
        rcases List.mem_append.mp ha with ha | ha
        · exact BTreeSet.mem_insert.mpr (Or.inr (h.emitted a ha l hal))
        · obtain rfl := List.mem_singleton.mp ha
          obtain rfl := Option.some.inj (hk.symm.trans hal)
          exact BTreeSet.mem_insert.mpr (Or.inl rfl)
      · intro r n hr
        rcases getElem?_snoc hr with hr | ⟨rfl, rfl⟩
        · rcases h.root_cases r n hr with ⟨a, ha, h1, h2, h3⟩ | ⟨l, hl, fam', h1, h2, h3⟩
          · exact Or.inl ⟨a, List.mem_append_left _ ha, h1, h2,
              ((hchild a).2 (hstand a h1)).trans h3⟩
          · exact Or.inr ⟨l, BTreeSet.mem_insert.mpr (Or.inr hl), fam', h1, h2,
              (BTreeMap.get_insert_of_ne (hnek l hl) _ _).trans h3⟩
        · exact Or.inr ⟨k, BTreeSet.mem_insert.mpr (Or.inl rfl), fam, hf, rfl,
            BTreeMap.get_insert_self _ _ _⟩

theorem foldl_forestStep (hg : Groups g families familyByActor)
    (hnd : ∀ family ∈ families, family.Nodup) (l done : List Actor) (build : ForestBuild Actor)
    (h : BuildInv families familyByActor done build) (hl : (done ++ l).Nodup) :
    BuildInv families familyByActor (done ++ l)
      (l.foldl (forestStep families familyByActor) build) := by
  induction l generalizing done build with
  | nil =>
    rw [List.append_nil]
    exact h
  | cons actor l ih =>
    have hnew : actor ∉ done := fun ha =>
      List.disjoint_of_nodup_append hl ha List.mem_cons_self
    have heq : done ++ actor :: l = (done ++ [actor]) ++ l := by simp
    rw [heq] at hl ⊢
    exact ih _ _ (h.step hg hnd hnew) hl

/-- **The built forest is located**: paths, leaves and branches as recorded. -/
theorem buildCommitmentForest_located (hg : Groups g families familyByActor)
    (hnd : ∀ family ∈ families, family.Nodup) :
    Located g families familyByActor (buildCommitmentForest g families familyByActor).1
      (buildCommitmentForest g families familyByActor).2 := by
  have hinit : BuildInv families familyByActor [] (⟨[], ⟨∅, ∅⟩, ∅⟩ : ForestBuild Actor) :=
    ⟨fun _ h => absurd h List.not_mem_nil, fun _ h => absurd h (BTreeSet.not_mem_empty _),
      fun _ h => absurd h List.not_mem_nil, fun _ _ h => by simp at h⟩
  have h := foldl_forestStep hg hnd g.actors.toList [] _ hinit g.actors.nodup
  rw [List.nil_append] at h
  refine ⟨h.standalone, fun k fam hk => ?_, fun r n hr => ?_⟩
  · -- a family is emitted at its first member
    obtain ⟨a, ha⟩ := List.exists_mem_of_ne_nil fam (hg.nonempty hk)
    obtain ⟨fam', r, h1, h2⟩ := h.family k
      (h.emitted a (hg.actors hk a ha) k (hg.get_of_mem hk ha))
    obtain rfl := Option.some.inj (hk.symm.trans h1)
    exact ⟨r, h2⟩
  · rcases h.root_cases r n hr with hstand | ⟨k, _, fam, hfam⟩
    · exact Or.inl hstand
    · exact Or.inr ⟨k, fam, hfam⟩

/-! ## the shape of a located forest -/

namespace Located
variable {f : CommitmentForest Actor} {locations : CommitmentLocations Actor}

theorem actorPath_eq {a : Actor} {p : NodePath} (h : locations.actorPaths.get a = some p) :
    locations.actorPath a = p := by
  unfold CommitmentLocations.actorPath
  rw [h]
  rfl

theorem familyPath_eq {k : Nat} {p : NodePath} (h : locations.familyPaths.get k = some p) :
    locations.familyPath k = p := by
  unfold CommitmentLocations.familyPath
  rw [h]
  rfl

theorem family_nodes (h : Located g families familyByActor f locations) {k : Nat}
    {fam : List Actor} (hk : families[k]? = some fam) :
    f.node (locations.familyPath k) = some (.branch (fam.map .leaf)) ∧
      ∀ (i : Nat) a, fam[i]? = some a →
        locations.actorPath a = (locations.familyPath k).child i := by
  obtain ⟨r, h1, h2, h3⟩ := h.family k fam hk
  rw [familyPath_eq h1]
  refine ⟨by rw [CommitmentForest.node_root, h2], fun i a hi => actorPath_eq (h3 i a hi)⟩

theorem branch_node (h : Located g families familyByActor f locations) {k : Nat}
    {fam : List Actor} (hk : families[k]? = some fam) :
    f.node (locations.familyPath k) = some (.branch (fam.map .leaf)) := (h.family_nodes hk).1

theorem leaf_node (hg : Groups g families familyByActor)
    (h : Located g families familyByActor f locations) {a : Actor} (ha : a ∈ g.actors) :
    f.node (locations.actorPath a) = some (.leaf a) := by
  cases hk : familyByActor.get a with
  | none =>
    obtain ⟨r, h1, h2⟩ := h.standalone a ha hk
    rw [actorPath_eq h1, CommitmentForest.node_root, h2]
  | some k =>
    obtain ⟨fam, hf, hmem⟩ := hg.get_iff.mp hk
    obtain ⟨hnode, hchild⟩ := h.family_nodes hf
    obtain ⟨i, hi, hia⟩ := List.getElem_of_mem hmem
    have hia' : fam[i]? = some a := List.getElem?_eq_some_iff.mpr ⟨hi, hia⟩
    rw [hchild i a hia', CommitmentForest.node_child, hnode]
    show (fam.map CommitmentNode.leaf)[i]? = _
    rw [List.getElem?_map, hia']
    rfl

theorem mem_kids (h : Located g families familyByActor f locations) {k : Nat}
    {fam : List Actor} (hk : families[k]? = some fam) {c : NodePath} :
    c ∈ f.branching.kids (locations.familyPath k) ↔ ∃ a ∈ fam, c = locations.actorPath a := by
  obtain ⟨hnode, hchild⟩ := h.family_nodes hk
  rw [CommitmentForest.mem_kids_branch hnode]
  show (∃ i, i < (fam.map CommitmentNode.leaf).length ∧ _) ↔ _
  rw [List.length_map]
  constructor
  · rintro ⟨i, hi, rfl⟩
    have hget : fam[i]? = some fam[i] := List.getElem?_eq_some_iff.mpr ⟨hi, rfl⟩
    exact ⟨fam[i], List.getElem_mem hi, (hchild i _ hget).symm⟩
  · rintro ⟨a, ha, rfl⟩
    obtain ⟨i, hi, rfl⟩ := List.getElem_of_mem ha
    exact ⟨i, hi, hchild i _ (List.getElem?_eq_some_iff.mpr ⟨hi, rfl⟩)⟩

/-- **Every node of the forest** is a standalone leaf, a family branch or the leaf of a member. -/
theorem node_cases (h : Located g families familyByActor f locations) {q : NodePath}
    {n : CommitmentNode Actor} (hq : f.node q = some n) :
    (∃ a ∈ g.actors, familyByActor.get a = none ∧ n = .leaf a ∧ q = locations.actorPath a) ∨
      (∃ (k : Nat) (fam : List Actor), families[k]? = some fam ∧ n = .branch (fam.map .leaf) ∧
        q = locations.familyPath k) ∨
      ∃ (k : Nat) (fam : List Actor), families[k]? = some fam ∧ ∃ a ∈ fam, n = .leaf a ∧
        q = locations.actorPath a := by
  obtain ⟨indices, hne⟩ := q
  obtain ⟨r, rest, rfl⟩ := List.exists_cons_of_ne_nil hne
  rw [CommitmentForest.node_cons] at hq
  cases hr : f.roots[r]? with
  | none => rw [hr] at hq; cases hq
  | some root =>
    rw [hr] at hq
    change root.walk rest = some n at hq
    rcases h.root_cases r root hr with ⟨a, ha, h1, rfl, h2⟩ | ⟨k, fam, hk, rfl, h2⟩
    · cases rest with
      | nil =>
        rw [CommitmentNode.walk_nil] at hq
        exact Or.inl ⟨a, ha, h1, (Option.some.inj hq).symm, (actorPath_eq h2).symm⟩
      | cons i rest => cases hq
    · cases rest with
      | nil =>
        rw [CommitmentNode.walk_nil] at hq
        exact Or.inr (Or.inl ⟨k, fam, hk, (Option.some.inj hq).symm, (familyPath_eq h2).symm⟩)
      | cons i rest =>
        rw [CommitmentNode.walk_cons] at hq
        rw [CommitmentNode.children_branch, List.getElem?_map] at hq
        cases hi : fam[i]? with
        | none => rw [hi] at hq; cases hq
        | some a =>
          rw [hi] at hq
          cases rest with
          | nil =>
            change (CommitmentNode.leaf a).walk [] = some n at hq
            rw [CommitmentNode.walk_nil] at hq
            refine Or.inr (Or.inr ⟨k, fam, hk, a, List.mem_of_getElem? hi,
              (Option.some.inj hq).symm, ?_⟩)
            rw [(h.family_nodes hk).2 i a hi, familyPath_eq h2]
            rfl
          | cons j rest => cases hq

/-- the leaf of an actor lies at its recorded path only -/
theorem leaf_unique (h : Located g families familyByActor f locations) {q : NodePath} {a : Actor}
    (hq : f.node q = some (.leaf a)) : q = locations.actorPath a := by
  rcases h.node_cases hq with ⟨b, _, _, hb, rfl⟩ | ⟨_, _, _, hb, _⟩ | ⟨_, _, _, b, _, hb, rfl⟩
  · cases hb; rfl
  · cases hb
  · cases hb; rfl

theorem actorPath_inj (hg : Groups g families familyByActor)
    (h : Located g families familyByActor f locations) {a b : Actor} (ha : a ∈ g.actors)
    (hb : b ∈ g.actors) (he : locations.actorPath a = locations.actorPath b) : a = b := by
  have h1 := leaf_node hg h ha
  rw [he, leaf_node hg h hb] at h1
  cases h1
  rfl

theorem actorPath_ne_familyPath (hg : Groups g families familyByActor)
    (h : Located g families familyByActor f locations) {a : Actor} (ha : a ∈ g.actors) {k : Nat}
    {fam : List Actor} (hk : families[k]? = some fam) :
    locations.actorPath a ≠ locations.familyPath k := by
  intro he
  have h1 := leaf_node hg h ha
  rw [he, h.branch_node hk] at h1
  cases h1

theorem familyPath_inj (hg : Groups g families familyByActor)
    (h : Located g families familyByActor f locations) {k l : Nat} {fam fam' : List Actor}
    (hk : families[k]? = some fam) (hl : families[l]? = some fam')
    (he : locations.familyPath k = locations.familyPath l) : k = l := by
  -- the first member of one family is a member of the other
  obtain ⟨a, ha⟩ := List.exists_mem_of_ne_nil fam (hg.nonempty hk)
  have hkid := (h.mem_kids hk).mpr ⟨a, ha, rfl⟩
  rw [he] at hkid
  obtain ⟨b, hb, hab⟩ := (h.mem_kids hl).mp hkid
  obtain rfl := actorPath_inj hg h (hg.actors hk a ha) (hg.actors hl b hb) hab
  exact hg.unique hk hl ha hb

theorem anc_cases (hg : Groups g families familyByActor)
    (h : Located g families familyByActor f locations) {p q : NodePath}
    (ha : f.branching.Anc p q) :
    p = q ∨ ∃ (k : Nat) (fam : List Actor), families[k]? = some fam ∧ ∃ a ∈ fam,
      p = locations.familyPath k ∧ q = locations.actorPath a := by
  rcases ha.head with rfl | ⟨c, hc, hcq⟩
  · exact Or.inl rfl
  · obtain ⟨n, hn, hne⟩ := CommitmentForest.node_of_kid hc
    rcases h.node_cases hn with ⟨a, _, _, rfl, _⟩ | ⟨k, fam, hk, rfl, rfl⟩ | ⟨_, _, _, a, _, rfl, _⟩
    · exact absurd rfl hne
    · obtain ⟨a, hmem, rfl⟩ := (h.mem_kids hk).mp hc
      rcases hcq.head with rfl | ⟨d, hd, _⟩
      · exact Or.inr ⟨k, fam, hk, a, hmem, rfl, rfl⟩
      · obtain ⟨m, hm, hme⟩ := CommitmentForest.node_of_kid hd
        rw [leaf_node hg h (hg.actors hk a hmem)] at hm
        obtain rfl := Option.some.inj hm
        exact absurd rfl hme
    · exact absurd rfl hne

end Located
end

end Argent.Routing
