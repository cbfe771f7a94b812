import Argent.Routing.PlanSound

/-!
# The nodes of a planned cut

`CommitmentPlan.cutNodes` lists the nodes of a cut in path order.

* `PlannedNodes`               what holds of that list;
* `NodeTransition`             what a transition opens and packs, by nodes;
* `commitmentPlan_nodes`       **the nodes of a plan**: no repetition, leaves of the graph and
                               branches of the families, no family packed and opened at once;
* `commitmentPlan_families`    the families of an accepted plan are disjoint and have no repetition.
-/

set_option linter.unusedSectionVars false
set_option linter.unusedVariables false

namespace Argent.Routing
variable {Actor : Type*} [LinearOrder Actor]

/-- what holds of the nodes of one actor's cut -/
structure PlannedNodes (g : RouteGraph Actor) (constraints : CommitmentConstraints Actor)
    (plan : CommitmentPlan Actor) (a : Actor) (nodes : List (CommitmentNode Actor)) : Prop where
  get : plan.cutNodes a = some nodes
  nodup : nodes.Nodup
  cases : ∀ n ∈ nodes, (∃ x ∈ g.actors, n = .leaf x) ∨
    ∃ family ∈ constraints.families, n = .branch (family.map .leaf)
  /-- a member of the own cohort has the same nodes, and its leaf is one of them -/
  members : ∀ cohort ∈ constraints.cohorts, a ∈ cohort → ∀ b ∈ cohort,
    plan.cutNodes b = some nodes ∧ .leaf b ∈ nodes
  unmixed : ∀ family ∈ constraints.families, .branch (family.map .leaf) ∈ nodes →
    ∀ x ∈ family, .leaf x ∉ nodes
  consumes : ∀ x ∈ g.directConsumes a, .leaf x ∈ nodes
  emits : ∀ x ∈ g.emitTargets a, .leaf x ∈ nodes ∨
    ∃ family ∈ constraints.families, x ∈ family ∧ .branch (family.map .leaf) ∈ nodes

/-- the operations of a transition between two cuts, all as lists of nodes -/
structure NodeTransition (families : Families Actor)
    (source target opened packed : List (CommitmentNode Actor)) : Prop where
  leaf : ∀ x, .leaf x ∈ target → .leaf x ∈ source ∨ ∃ family ∈ families, x ∈ family ∧
    .branch (family.map .leaf) ∈ opened
  opened : ∀ n ∈ opened, n ∈ source ∧ ∃ family ∈ families, n = .branch (family.map .leaf)
  branch : ∀ family ∈ families, .branch (family.map .leaf) ∈ target →
    .branch (family.map .leaf) ∈ packed ∨ .branch (family.map .leaf) ∈ source
  packed : ∀ n ∈ packed, n ∈ target ∧ n ∉ source ∧ ∃ family ∈ families,
    n = .branch (family.map .leaf) ∧ ∀ x ∈ family, .leaf x ∈ source

section
variable {g : RouteGraph Actor} {constraints : CommitmentConstraints Actor}
  {plan : CommitmentPlan Actor} {familyByActor : BTreeMap Actor Nat}
  {locations : CommitmentLocations Actor} {a : Actor} {cut : Cut}

theorem Planned.node_inj (h : Planned g constraints plan familyByActor locations) {p q : NodePath}
    {n : CommitmentNode Actor} (hp : plan.forest.node p = some n)
    (hq : plan.forest.node q = some n) : p = q := by
  obtain ⟨x, _, _, hn, _⟩ | ⟨k, fam, hk, hn, _⟩ | ⟨_, _, _, x, _, hn, _⟩ := h.located.node_cases hp
  · rw [hn] at hp hq
    rw [h.located.leaf_unique hp, h.located.leaf_unique hq]
  · rw [hn] at hp hq
    rw [h.branch_unique hk hp, h.branch_unique hk hq]
  · rw [hn] at hp hq
    rw [h.located.leaf_unique hp, h.located.leaf_unique hq]

theorem Planned.plannedNodes (h : Planned g constraints plan familyByActor locations)
    (hget : plan.cuts.get a = some cut) (hcut : IsCut g constraints familyByActor locations a cut) :
    PlannedNodes g constraints plan a (cut.toList.filterMap plan.forest.node) := by
  have hmem : ∀ n, n ∈ cut.toList.filterMap plan.forest.node ↔
      ∃ p ∈ cut, plan.forest.node p = some n := fun n => List.mem_filterMap
  have hnodes : ∀ {b}, plan.cuts.get b = some cut →
      plan.cutNodes b = some (cut.toList.filterMap plan.forest.node) := by
    intro b hb
    unfold CommitmentPlan.cutNodes
    rw [hb]
  refine ⟨hnodes hget, ?_, ?_, ?_, ?_, fun x hx => ?_, fun x hx => ?_⟩
  · exact List.Nodup.filterMap (fun p q n hp hq => h.node_inj hp hq) cut.nodup
  · intro n hn
    obtain ⟨p, _, hnode⟩ := (hmem n).mp hn
    obtain ⟨x, hx, _, hn, _⟩ | ⟨k, fam, hk, hn, _⟩ | ⟨k, fam, hk, x, hx, hn, _⟩ :=
      h.located.node_cases hnode
    · exact Or.inl ⟨x, hx, hn⟩
    · exact Or.inr ⟨fam, List.mem_of_getElem? hk, hn⟩
    · exact Or.inl ⟨x, h.families.actors hk x hx, hn⟩
  · intro cohort hc ha b hb
    refine ⟨hnodes (h.shared hcut hc ha hb), (hmem _).mpr ?_⟩
    exact h.carries_exposed hcut (Or.inr ⟨cohort, hc, ha, Or.inl hb⟩)
  · intro family hfam hbranch x hx hleaf
    exact h.unmixed hcut hfam ((hmem _).mp hbranch) x hx ((hmem _).mp hleaf)
  · exact (hmem _).mpr (h.carries_exposed hcut (Or.inl hx))
  · have hneed : Required g constraints.cohorts a x :=
      RouteGraph.Needed.target (((needsGraph_spec constraints.cohorts h.cohorts).2.2 a x).mpr
        (Or.inl hx))
    obtain ⟨p, hp, hleaf | ⟨family, hfam, hin, hbranch⟩, _⟩ := h.covered hcut hneed
    · exact Or.inl ((hmem _).mpr ⟨p, hp, hleaf⟩)
    · exact Or.inr ⟨family, hfam, hin, (hmem _).mpr ⟨p, hp, hbranch⟩⟩

/-- **The nodes of a plan.** -/
theorem commitmentPlan_nodes (h : commitmentPlan g constraints = .ok plan) :
    ∀ a ∈ g.actors, ∃ nodes, PlannedNodes g constraints plan a nodes := by
  obtain ⟨familyByActor, locations, hp⟩ := commitmentPlan_planned h
  intro a ha
  obtain ⟨cut, hget, hcut⟩ := hp.cuts a ha
  exact ⟨_, hp.plannedNodes hget hcut⟩

theorem mem_nodeRefs {f : CommitmentForest Actor} {refs : List f.NodeRef} {paths : List NodePath}
    (h : refs.map CommitmentForest.NodeRef.path = paths) {n : CommitmentNode Actor} :
    n ∈ refs.map CommitmentForest.NodeRef.get ↔ ∃ p ∈ paths, f.node p = some n := by
  rw [← h, List.mem_map]
  constructor
  · intro ⟨ref, hmem, hn⟩
    exact ⟨ref.path, List.mem_map_of_mem hmem, by rw [ref.node_path, hn]⟩
  · intro ⟨p, hp, hn⟩
    obtain ⟨ref, hmem, rfl⟩ := List.mem_map.mp hp
    rw [ref.node_path, Option.some_inj] at hn
    exact ⟨ref, hmem, hn⟩

theorem Planned.nodeTransition (h : Planned g constraints plan familyByActor locations)
    {b : Actor} {target : Cut} (hcut : IsCut g constraints familyByActor locations a cut)
    (htarget : IsCut g constraints familyByActor locations b target)
    {tr : CutTransition plan.forest} (htr : plan.forest.transition cut target = some tr) :
    NodeTransition constraints.families (cut.toList.filterMap plan.forest.node)
      (target.toList.filterMap plan.forest.node)
      (tr.branchesToOpen.map CommitmentForest.NodeRef.get)
      (tr.branchesToPack.map CommitmentForest.NodeRef.get) := by
  have hs := h.isValidCut hcut
  have ht := h.isValidCut htarget
  have hvalid := (CommitmentForest.isValidCut_iff.mp hs).2
  have hder := (CommitmentForest.transition_isSome hs ht).mp (by rw [htr]; rfl)
  obtain ⟨paths, hpaths⟩ := Option.isSome_iff_exists.mp
    ((CommitmentForest.transitionPaths_spec hs ht).1.mpr hder)
  obtain ⟨_, hopenPaths, hpackPaths⟩ := (CommitmentForest.transitionPaths_spec hs ht).2 paths hpaths
  obtain ⟨tr', htr', _, hopen, hpack⟩ := CommitmentForest.transition_eq_some hs ht hpaths
  obtain rfl : tr = tr' := Option.some_inj.mp (htr.symm.trans htr')
  have hnode : ∀ {c : Cut} {n}, n ∈ c.toList.filterMap plan.forest.node ↔
      ∃ p ∈ c, plan.forest.node p = some n := List.mem_filterMap
  have hopened : ∀ {n}, n ∈ tr.branchesToOpen.map CommitmentForest.NodeRef.get ↔
      ∃ p ∈ plan.forest.branching.toOpen cut.toSet target.toSet, plan.forest.node p = some n := by
    intro n
    rw [mem_nodeRefs hopen]
    refine exists_congr fun p => and_congr_left fun _ => ?_
    rw [List.mem_insertionSort]
    exact hopenPaths p
  have hpacked : ∀ {n}, n ∈ tr.branchesToPack.map CommitmentForest.NodeRef.get ↔
      ∃ p ∈ plan.forest.branching.toPack cut.toSet target.toSet, plan.forest.node p = some n := by
    intro n
    rw [mem_nodeRefs hpack]
    refine exists_congr fun p => and_congr_left fun _ => ?_
    rw [List.mem_insertionSort]
    exact hpackPaths p
  -- a path that is packed out of the cut and not in it is the branch of a family
  have hfamily : ∀ {p : NodePath}, p ∉ cut → plan.forest.branching.Packed cut.toSet p →
      ∃ family ∈ constraints.families, plan.forest.node p = some (.branch (family.map .leaf)) ∧
        ∀ x ∈ family, ∃ q ∈ cut, plan.forest.node q = some (.leaf x) := by
    intro p hp hpk
    cases hpk with
    | here hmem => exact absurd hmem hp
    | pack hne hk =>
      obtain ⟨c, hc⟩ := hne
      obtain heq | ⟨k, fam, hfam, _, _, rfl, _⟩ :=
        h.located.anc_cases h.families (Branching.Anc.kid hc)
      · have := plan.forest.branching.depth_kid hc
        rw [heq] at this
        omega
      · refine ⟨fam, List.mem_of_getElem? hfam, h.located.branch_node hfam, fun x hx => ?_⟩
        have hleaf := h.located.leaf_node h.families (h.families.actors hfam x hx)
        refine ⟨_, ?_, hleaf⟩
        cases hk _ ((h.located.mem_kids hfam).mpr ⟨x, hx, rfl⟩) with
        | here hmem => exact hmem
        | pack hne _ =>
          obtain ⟨d, hd⟩ := hne
          obtain ⟨m, hm, hme⟩ := CommitmentForest.node_of_kid hd
          rw [hleaf] at hm
          exact absurd (Option.some_inj.mp hm ▸ rfl) hme
  -- the branch of a family has no proper ancestor
  have hroot : ∀ {p q : NodePath} {family : List Actor},
      plan.forest.node p = some (.branch (family.map .leaf)) →
      plan.forest.branching.Anc q p → q = p := by
    intro p q family hp hanc
    obtain heq | ⟨k, fam, hk, y, hy, _, rfl⟩ := h.located.anc_cases h.families hanc
    · exact heq
    · rw [h.located.leaf_node h.families (h.families.actors hk y hy)] at hp
      cases hp
  refine ⟨fun x hx => ?_, fun n hn => ?_, fun family hfam hbranch => ?_, fun n hn => ?_⟩
  · obtain ⟨p, hp, hleaf⟩ := hnode.mp hx
    obtain ⟨c, hc, hanc⟩ | hpk := (hder p hp).below_or_packed
    · obtain rfl | ⟨k, fam, hk, y, hy, rfl, rfl⟩ := h.located.anc_cases h.families hanc
      · exact Or.inl (hnode.mpr ⟨_, hc, hleaf⟩)
      · have hpath := h.located.leaf_node h.families (h.families.actors hk y hy)
        rw [hpath, Option.some_inj] at hleaf
        obtain rfl : y = x := by injection hleaf
        refine Or.inr ⟨fam, List.mem_of_getElem? hk, hy, hopened.mpr
          ⟨_, ⟨_, hp, _, hc, Branching.Anc.refl _, hanc, ?_⟩, h.located.branch_node hk⟩⟩
        exact (h.located.actorPath_ne_familyPath h.families (h.families.actors hk y hy) hk).symm
    · by_cases hmem : p ∈ cut
      · exact Or.inl (hnode.mpr ⟨_, hmem, hleaf⟩)
      · obtain ⟨_, _, hnode', _⟩ := hfamily hmem hpk
        rw [hleaf] at hnode'
        cases hnode'
  · obtain ⟨p, ⟨q, hq, c, hc, hcp, hpq, hne⟩, hp⟩ := hopened.mp hn
    obtain heq | ⟨k, fam, hk, y, hy, rfl, rfl⟩ := h.located.anc_cases h.families hpq
    · exact absurd heq hne
    · obtain rfl := hroot (h.located.branch_node hk) hcp
      refine ⟨hnode.mpr ⟨_, hc, hp⟩, fam, List.mem_of_getElem? hk, ?_⟩
      rw [h.located.branch_node hk, Option.some_inj] at hp
      exact hp.symm
  · obtain ⟨p, hp, hp'⟩ := hnode.mp hbranch
    by_cases hmem : p ∈ cut
    · exact Or.inr (hnode.mpr ⟨p, hmem, hp'⟩)
    · obtain ⟨c, hc, hanc⟩ | hpk := (hder p hp).below_or_packed
      · obtain rfl := hroot hp' hanc
        exact absurd hc hmem
      · exact Or.inl (hpacked.mpr ⟨p, ⟨hmem, hpk, p, hp, Branching.Anc.refl p⟩, hp'⟩)
  · obtain ⟨p, ⟨hmem, hpk, q, hq, hqp⟩, hp⟩ := hpacked.mp hn
    obtain ⟨family, hfam, hbranch, hleaves⟩ := hfamily hmem hpk
    obtain rfl := hroot hbranch hqp
    refine ⟨hnode.mpr ⟨_, hq, hp⟩, fun hsource => ?_, family, hfam, ?_, fun x hx => ?_⟩
    · obtain ⟨p', hp', hnode'⟩ := hnode.mp hsource
      exact hmem (h.node_inj hnode' hp ▸ hp')
    · rw [hp, Option.some_inj] at hbranch
      exact hbranch
    · exact hnode.mpr (hleaves x hx)

/-- **The operations of a planned transition**, by nodes. -/
theorem commitmentPlan_transition (h : commitmentPlan g constraints = .ok plan) {b : Actor}
    (ha : a ∈ g.actors) (hb : b ∈ g.actors) {tr : CutTransition plan.forest}
    (htr : plan.cutTransition a b = .ok tr) :
    ∃ source target, plan.cutNodes a = some source ∧ plan.cutNodes b = some target ∧
      NodeTransition constraints.families source target
        (tr.branchesToOpen.map CommitmentForest.NodeRef.get)
        (tr.branchesToPack.map CommitmentForest.NodeRef.get) := by
  obtain ⟨familyByActor, locations, hp⟩ := commitmentPlan_planned h
  obtain ⟨cut, hget, hcut⟩ := hp.cuts a ha
  obtain ⟨target, hget', htarget⟩ := hp.cuts b hb
  refine ⟨_, _, (hp.plannedNodes hget hcut).get, (hp.plannedNodes hget' htarget).get,
    hp.nodeTransition hcut htarget ?_⟩
  unfold CommitmentPlan.cutTransition at htr
  simp only [hget, hget'] at htr
  cases hcase : plan.forest.transition cut target with
  | none => rw [hcase] at htr; cases htr
  | some tr' =>
    rw [hcase] at htr
    rw [Except.ok.inj htr]

theorem commitmentPlan_families (h : commitmentPlan g constraints = .ok plan) :
    constraints.families.Nodup ∧
      (∀ family ∈ constraints.families, family ≠ [] ∧ family.Nodup ∧ ∀ x ∈ family, x ∈ g.actors) ∧
      ∀ family ∈ constraints.families, ∀ family' ∈ constraints.families, ∀ x ∈ family,
        x ∈ family' → family = family' := by
  unfold commitmentPlan at h
  cases hf : validateFamilies g constraints.families with
  | error e => rw [hf] at h; cases h
  | ok familyByActor =>
    obtain ⟨hgroups, hnodup⟩ := validateFamilies_groups hf
    refine ⟨?_, fun family hfam => ?_, fun family hfam family' hfam' x hx hx' => ?_⟩
    · rw [List.nodup_iff_getElem?_ne_getElem?]
      intro i j hij hj heq
      have hl := List.getElem?_eq_getElem hj
      obtain ⟨x, hx⟩ := List.exists_mem_of_ne_nil _ (hgroups.nonempty hl)
      exact absurd (hgroups.unique (heq.trans hl) hl hx hx) (Nat.ne_of_lt hij)
    · obtain ⟨k, hk⟩ := List.mem_iff_getElem?.mp hfam
      exact ⟨hgroups.nonempty hk, hnodup family hfam, hgroups.actors hk⟩
    · obtain ⟨k, hk⟩ := List.mem_iff_getElem?.mp hfam
      obtain ⟨l, hl⟩ := List.mem_iff_getElem?.mp hfam'
      rw [hgroups.unique hk hl hx hx'] at hk
      exact Option.some.inj (hk.symm.trans hl)

end

end Argent.Routing
