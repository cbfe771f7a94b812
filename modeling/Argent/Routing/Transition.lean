import Argent.Routing.ForestSound

/-!
# The transition between two valid cuts

* `collectPackNode_spec`   `collect_pack_paths` decides `Packed` and collects what has to be packed;
* `transitionStep_spec`    one target path: it is derivable and its opens and packs are added;
* `transitionPaths_spec`   the whole loop: exactly `toOpen` and `toPack` of the two cuts;
* `transition_isSome`      the lookups after the loop never fail;
* `transition_replays`     **the transition exists exactly for reachable targets and replays**.
-/

set_option linter.unusedSectionVars false

namespace Argent.Routing
variable {Actor : Type*}

namespace CommitmentForest
variable {f : CommitmentForest Actor} {source : Cut}

/-- the packs of one target path -/
def PacksFor (f : CommitmentForest Actor) (source : Cut) (p x : NodePath) : Prop :=
  x ∉ source ∧ f.branching.Packed source.toSet x ∧ f.branching.Anc p x

/-- the opens of one target path -/
def OpensFor (f : CommitmentForest Actor) (source : Cut) (p x : NodePath) : Prop :=
  ∃ a ∈ source, f.branching.Anc a x ∧ f.branching.Anc x p ∧ x ≠ p

theorem not_packsFor_of_anc (hs : f.branching.Valid source.toSet) {a p x : NodePath}
    (ha : a ∈ source) (hap : f.branching.Anc a p) : ¬ f.PacksFor source p x := by
  rintro ⟨hx, hpk, hpx⟩
  obtain ⟨b, hb, hxb⟩ := hpk.exists_below
  have e : a = b := hs a ha b hb (hap.trans (hpx.trans hxb))
  have e' : x = a := Branching.Anc.antisymm (e ▸ hxb) (hap.trans hpx)
  exact hx (e' ▸ ha)

theorem packed_iff_of_not_mem {p : NodePath} {n : CommitmentNode Actor} (hn : f.node p = some n)
    (hp : p ∉ source) :
    f.branching.Packed source.toSet p ↔
      n.children ≠ [] ∧
        ∀ i, i < n.children.length → f.branching.Packed source.toSet (p.child i) := by
  constructor
  · intro h
    cases h with
    | here h => exact absurd h hp
    | pack hne hk =>
      exact ⟨(kids_nonempty_iff hn).mp hne,
        fun i hi => hk _ ((mem_kids_branch hn).mpr ⟨i, hi, rfl⟩)⟩
  · rintro ⟨hne, hk⟩
    refine .pack ((kids_nonempty_iff hn).mpr hne) fun c hc => ?_
    obtain ⟨i, hi, rfl⟩ := (mem_kids_branch hn).mp hc
    exact hk i hi

theorem packsFor_iff {p x : NodePath} {n : CommitmentNode Actor} (hn : f.node p = some n)
    (hp : p ∉ source) (hpk : f.branching.Packed source.toSet p) :
    f.PacksFor source p x ↔
      x = p ∨ ∃ i, i < n.children.length ∧ f.PacksFor source (p.child i) x := by
  constructor
  · rintro ⟨hx, hxk, hpx⟩
    rcases hpx.head with rfl | ⟨c, hc, hcx⟩
    · exact Or.inl rfl
    · obtain ⟨i, hi, rfl⟩ := (mem_kids_branch hn).mp hc
      exact Or.inr ⟨i, hi, hx, hxk, hcx⟩
  · rintro (rfl | ⟨i, hi, hx, hxk, hcx⟩)
    · exact ⟨hp, hpk, Branching.Anc.refl x⟩
    · exact ⟨hx, hxk, (Branching.Anc.kid ((mem_kids_branch hn).mpr ⟨i, hi, rfl⟩)).trans hcx⟩

/-! ## `collect_pack_paths` -/

mutual

theorem collectPackNode_spec (hs : f.branching.Valid source.toSet) (n : CommitmentNode Actor)
    (p : NodePath) (hn : f.node p = some n) (toPack : Cut) :
    ((collectPackNode source n p toPack).1 = true ↔ f.branching.Packed source.toSet p) ∧
      ((collectPackNode source n p toPack).1 = true →
        ∀ x, x ∈ (collectPackNode source n p toPack).2 ↔ x ∈ toPack ∨ f.PacksFor source p x) := by
  have hsel : p ∈ source → ∀ x, x ∈ toPack ↔ x ∈ toPack ∨ f.PacksFor source p x := fun hp x =>
    ⟨Or.inl, fun h => h.resolve_right (not_packsFor_of_anc hs hp (Branching.Anc.refl p))⟩
  cases n with
  | leaf a =>
    unfold collectPackNode
    by_cases hp : p ∈ source
    · exact ⟨⟨fun _ => .here hp, fun _ => decide_eq_true hp⟩, fun _ => hsel hp⟩
    · refine ⟨?_, fun h => absurd (of_decide_eq_true h) hp⟩
      rw [packed_iff_of_not_mem hn hp]
      simp [hp]
  | branch cs =>
    unfold collectPackNode
    by_cases hp : p ∈ source
    · rw [if_pos hp]
      exact ⟨⟨fun _ => .here hp, fun _ => rfl⟩, fun _ => hsel hp⟩
    rw [if_neg hp, packed_iff_of_not_mem hn hp]
    by_cases hne : cs.isEmpty = true
    · rw [if_pos hne]
      have hnil : cs = [] := List.isEmpty_iff.mp hne
      exact ⟨by simp [hnil], fun h => by cases h⟩
    rw [if_neg hne]
    have hkids : ∀ i (h : i < cs.length), f.node (p.child (0 + i)) = some cs[i] := by
      intro i h
      rw [Nat.zero_add, node_child, hn]
      exact List.getElem?_eq_getElem h
    obtain ⟨h1, h2⟩ := collectPackChildren_spec hs cs p 0 hkids toPack
    simp only [Nat.zero_add] at h1 h2
    generalize collectPackChildren source cs p 0 toPack = r at h1 h2
    obtain ⟨ok, acc⟩ := r
    have hcs : cs ≠ [] := by simpa using hne
    have hall : ok = true ↔ (CommitmentNode.branch cs).children ≠ [] ∧
        ∀ i, i < cs.length → f.branching.Packed source.toSet (p.child i) :=
      h1.trans ⟨fun h => ⟨hcs, h⟩, fun h => h.2⟩
    cases ok with
    | false => exact ⟨hall, fun h => by cases h⟩
    | true =>
      refine ⟨hall, fun _ x => ?_⟩
      have hpk : f.branching.Packed source.toSet p :=
        (packed_iff_of_not_mem hn hp).mpr (hall.mp rfl)
      show x ∈ insert p acc ↔ _
      rw [BTreeSet.mem_insert, packsFor_iff hn hp hpk, h2 rfl x, CommitmentNode.children_branch]
      tauto

theorem collectPackChildren_spec (hs : f.branching.Valid source.toSet)
    (l : List (CommitmentNode Actor)) (p : NodePath) (k : Nat)
    (hl : ∀ i (h : i < l.length), f.node (p.child (k + i)) = some l[i]) (toPack : Cut) :
    ((collectPackChildren source l p k toPack).1 = true ↔
        ∀ i, i < l.length → f.branching.Packed source.toSet (p.child (k + i))) ∧
      ((collectPackChildren source l p k toPack).1 = true →
        ∀ x, x ∈ (collectPackChildren source l p k toPack).2 ↔
          x ∈ toPack ∨ ∃ i, i < l.length ∧ f.PacksFor source (p.child (k + i)) x) := by
  cases l with
  | nil =>
    unfold collectPackChildren
    exact ⟨by simp, fun _ x => by simp⟩
  | cons n rest =>
    unfold collectPackChildren
    obtain ⟨h1, h2⟩ := collectPackNode_spec hs n (p.child k) (hl 0 (Nat.succ_pos _)) toPack
    generalize collectPackNode source n (p.child k) toPack = r at h1 h2
    obtain ⟨ok, acc⟩ := r
    cases ok with
    | false =>
      refine ⟨⟨fun h => (by cases h), fun h => ?_⟩, fun h => (by cases h)⟩
      exact absurd (h1.mpr (h 0 (Nat.succ_pos _))) Bool.false_ne_true
    | true =>
      have hrest : ∀ i (h : i < rest.length), f.node (p.child (k + 1 + i)) = some rest[i] := by
        intro i h
        have h3 := hl (i + 1) (Nat.succ_lt_succ h)
        rw [show k + (i + 1) = k + 1 + i by omega] at h3
        exact h3
      obtain ⟨h3, h4⟩ := collectPackChildren_spec hs rest p (k + 1) hrest acc
      simp only
      constructor
      · rw [h3]
        constructor
        · intro h i hi
          cases i with
          | zero => exact h1.mp rfl
          | succ i =>
            rw [show k + (i + 1) = k + 1 + i by omega]
            exact h i (Nat.lt_of_succ_lt_succ hi)
        · intro h i hi
          rw [show k + 1 + i = k + (i + 1) by omega]
          exact h (i + 1) (Nat.succ_lt_succ hi)
      · intro hok x
        rw [h4 hok x, h2 rfl x, or_assoc]
        refine or_congr_right ⟨?_, ?_⟩
        · rintro (h | ⟨i, hi, h⟩)
          · exact ⟨0, Nat.succ_pos _, h⟩
          · exact ⟨i + 1, Nat.succ_lt_succ hi, by rwa [show k + (i + 1) = k + 1 + i by omega]⟩
        · rintro ⟨i, hi, h⟩
          cases i with
          | zero => exact Or.inl h
          | succ i =>
            refine Or.inr ⟨i, Nat.lt_of_succ_lt_succ hi, ?_⟩
            rwa [show k + 1 + i = k + (i + 1) by omega]

end

/-! ## one target path -/

theorem mem_between {a p x : NodePath} :
    x ∈ NodePath.between a p ↔ x.pathIndices <+: p.pathIndices ∧ a.length ≤ x.length ∧
      x.length < p.length := by
  unfold NodePath.between
  rw [List.mem_map]
  constructor
  · rintro ⟨i, hi, rfl⟩
    have hi' := List.mem_range.mp hi
    refine ⟨List.take_prefix _ _, ?_, ?_⟩
    · show _ ≤ (p.pathIndices.take _).length
      rw [List.length_take]
      unfold NodePath.length at hi' ⊢
      omega
    · show (p.pathIndices.take _).length < _
      rw [List.length_take]
      unfold NodePath.length at hi' ⊢
      omega
  · rintro ⟨hpre, h1, h2⟩
    refine ⟨x.length - a.length, List.mem_range.mpr (by omega), NodePath.ext_indices ?_⟩
    show p.pathIndices.take (a.length + (x.length - a.length)) = x.pathIndices
    rw [Nat.add_sub_cancel' h1]
    exact (List.prefix_iff_eq_take.mp hpre).symm

/-- a proper prefix of a path of the forest is a branch -/
theorem isBranch_of_anc {x p : NodePath} (h : f.branching.Anc x p) (hne : x ≠ p) :
    (f.node x).any CommitmentNode.isBranch = true := by
  rcases h.head with rfl | ⟨c, hc, _⟩
  · exact absurd rfl hne
  · obtain ⟨n, hn, hch⟩ := node_of_kid hc
    rw [hn]
    cases n with
    | leaf a => exact absurd rfl hch
    | branch cs => rfl

/-- what one iteration adds -/
structure StepSpec (f : CommitmentForest Actor) (source : Cut) (acc : TransitionPaths)
    (p : NodePath) (acc' : TransitionPaths) : Prop where
  retained : acc'.retained = acc.retained ++ [p].filter (fun q => decide (q ∈ source))
  toOpen : ∀ x, x ∈ acc'.branchesToOpen ↔ x ∈ acc.branchesToOpen ∨ f.OpensFor source p x
  toPack : ∀ x, x ∈ acc'.branchesToPack ↔ x ∈ acc.branchesToPack ∨ f.PacksFor source p x

theorem transitionStep_spec (hs : f.branching.Valid source.toSet) {p : NodePath}
    (hp : (f.node p).isSome = true) (acc : TransitionPaths) :
    (f.branching.Derivable source.toSet p →
        ∃ acc', f.transitionStep source acc p = some acc' ∧ f.StepSpec source acc p acc') ∧
      (¬ f.branching.Derivable source.toSet p → f.transitionStep source acc p = none) := by
  obtain ⟨n, hn⟩ := Option.isSome_iff_exists.mp hp
  unfold transitionStep
  by_cases hsel : p ∈ source
  · have hder : f.branching.Derivable source.toSet p := .under hsel (Branching.Anc.refl p)
    rw [if_pos hsel, hn]
    refine ⟨fun _ => ⟨_, rfl, ?_, fun x => ?_, fun x => ?_⟩, fun h => absurd hder h⟩
    · simp [hsel]
    · refine ⟨Or.inl, fun h => h.resolve_right ?_⟩
      rintro ⟨a, ha, hax, hxp, hne⟩
      have e : a = p := hs a ha p hsel (hax.trans hxp)
      exact hne (hxp.antisymm (e ▸ hax))
    · exact ⟨Or.inl, fun h =>
        h.resolve_right (not_packsFor_of_anc hs hsel (Branching.Anc.refl p))⟩
  rw [if_neg hsel]
  have hret : acc.retained = acc.retained ++ [p].filter (fun q => decide (q ∈ source)) := by
    simp [hsel]
  cases hfind : source.toList.find? (fun q => p.startsWith q) with
  | some a =>
    have ha : a ∈ source := List.mem_of_find?_eq_some hfind
    have hap : f.branching.Anc a p :=
      (anc_iff hp).mpr (NodePath.startsWith_iff.mp (List.find?_some hfind))
    -- the ancestor is the only selected one, and the opened paths lie between it and `p`
    have hmem : ∀ x, x ∈ NodePath.between a p ↔ f.OpensFor source p x := by
      intro x
      rw [mem_between]
      constructor
      · rintro ⟨hpre, h1, h2⟩
        have hxp : f.branching.Anc x p := (anc_iff hp).mpr hpre
        have hax : f.branching.Anc a x := by
          refine (anc_iff (node_of_anc hxp hp)).mpr ?_
          exact List.prefix_of_prefix_length_le (prefix_of_anc hap) hpre h1
        refine ⟨a, ha, hax, hxp, ?_⟩
        rintro rfl
        exact lt_irrefl _ h2
      · rintro ⟨b, hb, hbx, hxp, hne⟩
        have hab : a = b := by
          rcases hap.total (hbx.trans hxp) with h | h
          · exact hs a ha b hb h
          · exact (hs b hb a ha h).symm
        refine ⟨prefix_of_anc hxp, (hab ▸ hbx).depth_le, ?_⟩
        refine lt_of_le_of_ne hxp.depth_le fun he => hne ?_
        exact hxp.eq_of_depth_le (le_of_eq he.symm)
    have hall : (NodePath.between a p).all (fun q => (f.node q).any CommitmentNode.isBranch)
        = true := by
      rw [List.all_eq_true]
      intro x hx
      obtain ⟨_, _, _, hxp, hne⟩ := (hmem x).mp hx
      exact isBranch_of_anc hxp hne
    simp only
    rw [if_pos hall]
    refine ⟨fun _ => ⟨_, rfl, hret, fun x => ?_, fun x => ?_⟩, fun h => absurd (.under ha hap) h⟩
    · rw [BTreeSet.mem_extend, hmem]
    · exact ⟨Or.inl, fun h => h.resolve_right (not_packsFor_of_anc hs ha hap)⟩
  | none =>
    have hno : ∀ a ∈ source, ¬ f.branching.Anc a p := by
      intro a ha hap
      have h1 := List.find?_eq_none.mp hfind a ha
      exact h1 (NodePath.startsWith_iff.mpr (prefix_of_anc hap))
    have hder : f.branching.Derivable source.toSet p ↔ f.branching.Packed source.toSet p :=
      ⟨fun h => h.below_or_packed.resolve_left fun ⟨a, ha, hap⟩ => hno a ha hap,
        fun h => h.derivable⟩
    obtain ⟨h1, h2⟩ := collectPackNode_spec hs n p hn acc.branchesToPack
    have hcol : f.collectPackPaths p source acc.branchesToPack
        = collectPackNode source n p acc.branchesToPack := by
      unfold collectPackPaths
      rw [hn]
    simp only
    rw [hcol, hder]
    generalize collectPackNode source n p acc.branchesToPack = r at h1 h2
    obtain ⟨ok, toPack⟩ := r
    cases ok with
    | false => exact ⟨fun h => absurd (h1.mpr h) Bool.false_ne_true, fun _ => rfl⟩
    | true =>
      refine ⟨fun _ => ⟨_, rfl, hret, fun x => ?_, h2 rfl⟩, fun h => absurd (h1.mp rfl) h⟩
      exact ⟨Or.inl, fun h => h.resolve_right fun ⟨a, ha, hax, hxp, _⟩ => hno a ha (hax.trans hxp)⟩

/-! ## the loop over the target cut -/

/-- what the iterations over the paths `l` add -/
structure LoopSpec (f : CommitmentForest Actor) (source : Cut) (acc : TransitionPaths)
    (l : List NodePath) (acc' : TransitionPaths) : Prop where
  retained : acc'.retained = acc.retained ++ l.filter (fun q => decide (q ∈ source))
  toOpen : ∀ x, x ∈ acc'.branchesToOpen ↔
    x ∈ acc.branchesToOpen ∨ ∃ p ∈ l, f.OpensFor source p x
  toPack : ∀ x, x ∈ acc'.branchesToPack ↔
    x ∈ acc.branchesToPack ∨ ∃ p ∈ l, f.PacksFor source p x

theorem LoopSpec.cons {acc acc' acc'' : TransitionPaths} {p : NodePath} {l : List NodePath}
    (h : f.StepSpec source acc p acc') (h' : f.LoopSpec source acc' l acc'') :
    f.LoopSpec source acc (p :: l) acc'' where
  retained := by
    rw [h'.retained, h.retained, List.append_assoc, ← List.filter_append]
    rfl
  toOpen := by
    intro x
    rw [h'.toOpen, h.toOpen, List.exists_mem_cons_iff, or_assoc]
  toPack := by
    intro x
    rw [h'.toPack, h.toPack, List.exists_mem_cons_iff, or_assoc]

theorem foldlM_transitionStep (hs : f.branching.Valid source.toSet) (l : List NodePath)
    (hl : ∀ p ∈ l, (f.node p).isSome = true) (acc : TransitionPaths) :
    ((∀ p ∈ l, f.branching.Derivable source.toSet p) →
        ∃ acc', l.foldlM (f.transitionStep source) acc = some acc' ∧ f.LoopSpec source acc l acc') ∧
      ((l.foldlM (f.transitionStep source) acc).isSome = true →
        ∀ p ∈ l, f.branching.Derivable source.toSet p) := by
  induction l generalizing acc with
  | nil => exact ⟨fun _ => ⟨acc, rfl, by simp, by simp, by simp⟩, fun _ => by simp⟩
  | cons p l ih =>
    obtain ⟨h1, h2⟩ := transitionStep_spec hs (hl p (by simp)) acc
    have hl' : ∀ q ∈ l, (f.node q).isSome = true := fun q hq => hl q (List.mem_cons_of_mem _ hq)
    rw [List.foldlM_cons]
    constructor
    · intro hd
      obtain ⟨acc', hacc', hstep⟩ := h1 (hd p (by simp))
      obtain ⟨acc'', hacc'', hloop⟩ :=
        (ih hl' acc').1 fun q hq => hd q (List.mem_cons_of_mem _ hq)
      refine ⟨acc'', ?_, hloop.cons hstep⟩
      rw [hacc']
      exact hacc''
    · intro hsome
      by_cases hp : f.branching.Derivable source.toSet p
      · obtain ⟨acc', hacc', _⟩ := h1 hp
        rw [hacc'] at hsome
        intro q hq
        rcases List.mem_cons.mp hq with rfl | hq
        · exact hp
        · exact (ih hl' acc').2 hsome q hq
      · rw [h2 hp] at hsome
        cases hsome

/-- **The loop succeeds exactly when every target path is derivable**, and then collects the
retained paths in order, `toOpen` and `toPack`. -/
theorem transitionPaths_spec {target : Cut} (hs : f.isValidCut source = true)
    (ht : f.isValidCut target = true) :
    ((f.transitionPaths source target).isSome = true ↔
        ∀ p ∈ target, f.branching.Derivable source.toSet p) ∧
      ∀ paths, f.transitionPaths source target = some paths →
        paths.retained = (target.filter fun q => decide (q ∈ source)).toList ∧
          (∀ x, x ∈ paths.branchesToOpen ↔ x ∈ f.branching.toOpen source.toSet target.toSet) ∧
          ∀ x, x ∈ paths.branchesToPack ↔ x ∈ f.branching.toPack source.toSet target.toSet := by
  have hs' := (isValidCut_iff.mp hs).2
  obtain ⟨h1, h2⟩ := foldlM_transitionStep hs' target.toList
    (fun p hp => (isValidCut_iff.mp ht).1 p hp) ⟨[], ∅, ∅⟩
  refine ⟨⟨h2, fun h => ?_⟩, fun paths hpaths => ?_⟩
  · obtain ⟨acc', hacc', _⟩ := h1 h
    unfold transitionPaths
    rw [hacc']
    rfl
  · obtain ⟨acc', hacc', hspec⟩ := h1 (h2 (by
      show (f.transitionPaths source target).isSome = true
      rw [hpaths]
      rfl))
    obtain rfl : acc' = paths := Option.some.inj (hacc'.symm.trans hpaths)
    refine ⟨by rw [hspec.retained]; rfl, fun x => ?_, fun x => ?_⟩
    · rw [hspec.toOpen]
      simp only [BTreeSet.not_mem_empty, false_or]
      exact Iff.rfl
    · rw [hspec.toPack]
      simp only [BTreeSet.not_mem_empty, false_or]
      constructor
      · rintro ⟨p, hp, hx, hpk, hpx⟩
        exact ⟨hx, hpk, p, hp, hpx⟩
      · rintro ⟨hx, hpk, p, hp, hpx⟩
        exact ⟨p, hp, hx, hpk, hpx⟩

/-! ## the borrowed nodes -/

theorem mapM_ref {l : List NodePath} (h : ∀ p ∈ l, (f.node p).isSome = true) :
    ∃ refs, l.mapM f.ref = some refs ∧ refs.map NodeRef.path = l := by
  induction l with
  | nil => exact ⟨[], rfl, rfl⟩
  | cons p l ih =>
    obtain ⟨refs, hrefs, hmap⟩ := ih fun q hq => h q (List.mem_cons_of_mem _ hq)
    have hp := h p (by simp)
    refine ⟨⟨p, hp⟩ :: refs, ?_, by rw [List.map_cons, hmap]⟩
    rw [List.mapM_cons, hrefs, ref, dif_pos hp]
    rfl

theorem node_of_packed {p : NodePath} (hs : ∀ q ∈ source, (f.node q).isSome = true)
    (h : f.branching.Packed source.toSet p) : (f.node p).isSome = true := by
  obtain ⟨a, ha, hpa⟩ := h.exists_below
  exact node_of_anc hpa (hs a ha)

/-- the final lookups succeed: the transition consists of the collected paths, sorted -/
theorem transition_eq_some {target : Cut} (hs : f.isValidCut source = true)
    (ht : f.isValidCut target = true) {paths : TransitionPaths}
    (hpaths : f.transitionPaths source target = some paths) :
    ∃ tr, f.transition source target = some tr ∧
      tr.retained.map NodeRef.path = paths.retained ∧
      tr.branchesToOpen.map NodeRef.path = paths.branchesToOpen.toList.insertionSort openOrder ∧
      tr.branchesToPack.map NodeRef.path = paths.branchesToPack.toList.insertionSort packOrder := by
  obtain ⟨hret, hopen, hpack⟩ := (transitionPaths_spec hs ht).2 paths hpaths
  have hsn := (isValidCut_iff.mp hs).1
  have htn := (isValidCut_iff.mp ht).1
  obtain ⟨r1, h1, m1⟩ := mapM_ref (f := f) (l := paths.retained) (by
    intro p hp
    rw [hret, BTreeSet.mem_toList, BTreeSet.mem_filter] at hp
    exact htn p hp.1)
  obtain ⟨r2, h2, m2⟩ := mapM_ref (f := f) (l := paths.branchesToOpen.toList.insertionSort openOrder)
    (by
      intro p hp
      obtain ⟨q, hq, _, _, _, hpq, _⟩ := (hopen p).mp ((List.mem_insertionSort _).mp hp)
      exact node_of_anc hpq (htn q hq))
  obtain ⟨r3, h3, m3⟩ := mapM_ref (f := f) (l := paths.branchesToPack.toList.insertionSort packOrder)
    (by
      intro p hp
      obtain ⟨_, hpk, _⟩ := (hpack p).mp ((List.mem_insertionSort _).mp hp)
      exact node_of_packed hsn hpk)
  refine ⟨⟨r1, r2, r3⟩, ?_, m1, m2, m3⟩
  unfold transition
  rw [hpaths]
  show (do
    let retained ← paths.retained.mapM f.ref
    let branchesToOpen ← (paths.branchesToOpen.toList.insertionSort openOrder).mapM f.ref
    let branchesToPack ← (paths.branchesToPack.toList.insertionSort packOrder).mapM f.ref
    return ({ retained, branchesToOpen, branchesToPack } : CutTransition f)) = _
  rw [h1, h2, h3]
  rfl

/-- the lookups after the loop never fail -/
theorem transition_isSome {target : Cut} (hs : f.isValidCut source = true)
    (ht : f.isValidCut target = true) :
    (f.transition source target).isSome = true ↔
      ∀ p ∈ target, f.branching.Derivable source.toSet p := by
  rw [← (transitionPaths_spec hs ht).1]
  cases hpaths : f.transitionPaths source target with
  | none =>
    unfold transition
    rw [hpaths]
    rfl
  | some paths =>
    obtain ⟨tr, htr, _⟩ := transition_eq_some hs ht hpaths
    rw [htr]
    rfl

/-! ## replaying a transition -/

instance : Std.Total openOrder where
  total p q := by
    rcases lt_trichotomy p.length q.length with h | h | h
    · exact Or.inl (Or.inl h)
    · rcases le_total p q with h' | h'
      · exact Or.inl (Or.inr ⟨h, h'⟩)
      · exact Or.inr (Or.inr ⟨h.symm, h'⟩)
    · exact Or.inr (Or.inl h)

instance : IsTrans NodePath openOrder where
  trans p q r := by
    rintro (h | ⟨h, h1⟩) (h' | ⟨h', h1'⟩)
    · exact Or.inl (by omega)
    · exact Or.inl (by omega)
    · exact Or.inl (by omega)
    · exact Or.inr ⟨by omega, le_trans h1 h1'⟩

instance : Std.Total packOrder where
  total p q := by
    rcases lt_trichotomy p.length q.length with h | h | h
    · exact Or.inr (Or.inl h)
    · rcases le_total p q with h' | h'
      · exact Or.inl (Or.inr ⟨h.symm, h'⟩)
      · exact Or.inr (Or.inr ⟨h, h'⟩)
    · exact Or.inl (Or.inl h)

instance : IsTrans NodePath packOrder where
  trans p q r := by
    rintro (h | ⟨h, h1⟩) (h' | ⟨h', h1'⟩)
    · exact Or.inl (by omega)
    · exact Or.inl (by omega)
    · exact Or.inl (by omega)
    · exact Or.inr ⟨by omega, le_trans h1 h1'⟩

theorem openRun_foldlM {S T : Set NodePath} {l : List NodePath} (h : f.branching.OpenRun S l T) :
    ∀ s : Cut, s.toSet = S → f.isValidCut s = true →
      ∃ t : Cut, l.foldlM f.open s = some t ∧ t.toSet = T ∧ f.isValidCut t = true := by
  induction h with
  | nil S => exact fun s hS hv => ⟨s, rfl, hS, hv⟩
  | @cons S T b l hb _ ih =>
    rintro s rfl hv
    obtain ⟨s', hs'⟩ := exists_open hv hb
    obtain ⟨t, ht, htT, htv⟩ := ih s' (open_eq_some.mp hs').2.2 (open_isValidCut hs')
    refine ⟨t, ?_, htT, htv⟩
    rw [List.foldlM_cons, hs']
    exact ht

theorem packRun_foldlM {S T : Set NodePath} {l : List NodePath} (h : f.branching.PackRun S l T) :
    ∀ s : Cut, s.toSet = S → f.isValidCut s = true →
      ∃ t : Cut, l.foldlM f.pack s = some t ∧ t.toSet = T := by
  induction h with
  | nil S => exact fun s hS _ => ⟨s, rfl, hS⟩
  | @cons S T b l hb _ ih =>
    rintro s rfl hv
    obtain ⟨s', hs'⟩ := exists_pack hv hb
    obtain ⟨t, ht, htT⟩ := ih s' (pack_eq_some.mp hs').2.2 (pack_isValidCut hs')
    refine ⟨t, ?_, htT⟩
    rw [List.foldlM_cons, hs']
    exact ht

theorem reachable_of_foldlM {op : Cut → NodePath → Option Cut}
    (hop : ∀ s b t, op s b = some t → f.Operation s t) (l : List NodePath) :
    ∀ s t : Cut, l.foldlM op s = some t → f.Reachable s t := by
  induction l with
  | nil =>
    intro s t h
    obtain rfl : s = t := Option.some.inj h
    exact Relation.ReflTransGen.refl
  | cons b l ih =>
    intro s t h
    rw [List.foldlM_cons] at h
    cases hb : op s b with
    | none => rw [hb] at h; cases h
    | some s' =>
      rw [hb] at h
      exact Relation.ReflTransGen.head (hop s b s' hb) (ih s' t h)

/-- opens parents first, then packs children first: the operations of a transition succeed -/
theorem replays_of_transition {source target : Cut} (hs : f.isValidCut source = true)
    (ht : f.isValidCut target = true) {tr : CutTransition f}
    (htr : f.transition source target = some tr) :
    ∃ opened packed, (tr.branchesToOpen.map NodeRef.path).foldlM f.open source = some opened ∧
      (tr.branchesToPack.map NodeRef.path).foldlM f.pack opened = some packed ∧
      target ⊆ packed := by
  have hder := (transition_isSome hs ht).mp (by rw [htr]; rfl)
  obtain ⟨paths, hpaths⟩ := Option.isSome_iff_exists.mp
    ((transitionPaths_spec hs ht).1.mpr hder)
  obtain ⟨tr', htr', _, hopen, hpack⟩ := transition_eq_some hs ht hpaths
  obtain rfl : tr' = tr := Option.some.inj (htr'.symm.trans htr)
  obtain ⟨_, hmo, hmp⟩ := (transitionPaths_spec hs ht).2 paths hpaths
  rw [hopen, hpack]
  obtain ⟨m, r, hm, hr, hsub⟩ := Branching.replay (isValidCut_iff.mp ht).2 hder
    (paths.branchesToOpen.toList.insertionSort openOrder)
    (paths.branchesToPack.toList.insertionSort packOrder)
    (fun b => (List.mem_insertionSort _).trans (hmo b))
    (fun b => (List.mem_insertionSort _).trans (hmp b))
    ((List.perm_insertionSort _ _).nodup_iff.mpr paths.branchesToOpen.nodup)
    ((List.perm_insertionSort _ _).nodup_iff.mpr paths.branchesToPack.nodup)
    ((List.pairwise_insertionSort openOrder _).imp fun h => by
      rcases h with h | h
      · exact le_of_lt h
      · exact le_of_eq h.1)
    ((List.pairwise_insertionSort packOrder _).imp fun h => by
      rcases h with h | h
      · exact le_of_lt h
      · exact le_of_eq h.1)
  obtain ⟨opened, ho, hoset, hov⟩ := openRun_foldlM hm source rfl hs
  obtain ⟨packed, hp, hpset⟩ := packRun_foldlM hr opened hoset hov
  refine ⟨opened, packed, ho, hp, fun p hp' => ?_⟩
  rw [← BTreeSet.mem_toSet, hpset]
  exact hsub hp'

/-- **A transition exists exactly when the target lies in a reachable cut.**  Its opens and packs,
performed in the listed order, succeed and end in a cut around the target; the retained paths are
those in both cuts. -/
theorem transition_replays (f : CommitmentForest Actor) (source target : Cut)
    (hs : f.isValidCut source = true) (ht : f.isValidCut target = true) :
    ((f.transition source target).isSome = true ↔
        ∃ cut, f.Reachable source cut ∧ target ⊆ cut) ∧
      ∀ tr, f.transition source target = some tr →
        (∃ opened packed, (tr.branchesToOpen.map NodeRef.path).foldlM f.open source = some opened ∧
          (tr.branchesToPack.map NodeRef.path).foldlM f.pack opened = some packed ∧
          target ⊆ packed) ∧
        tr.retained.map NodeRef.path = (target.filter fun p => decide (p ∈ source)).toList := by
  refine ⟨⟨fun h => ?_, ?_⟩, fun tr htr => ⟨replays_of_transition hs ht htr, ?_⟩⟩
  · obtain ⟨tr, htr⟩ := Option.isSome_iff_exists.mp h
    obtain ⟨opened, packed, ho, hp, hsub⟩ := replays_of_transition hs ht htr
    refine ⟨packed, ?_, hsub⟩
    have h1 := reachable_of_foldlM (fun s b t h => ⟨b, Or.inl h⟩) _ _ _ ho
    have h2 := reachable_of_foldlM (fun s b t h => ⟨b, Or.inr h⟩) _ _ _ hp
    exact Relation.ReflTransGen.trans h1 h2
  · rintro ⟨cut, hreach, hsub⟩
    refine (transition_isSome hs ht).mpr fun p hp => ?_
    exact Branching.reach_derivable hreach.reach p (hsub p hp)
  · have hder := (transition_isSome hs ht).mp (by rw [htr]; rfl)
    obtain ⟨paths, hpaths⟩ := Option.isSome_iff_exists.mp
      ((transitionPaths_spec hs ht).1.mpr hder)
    obtain ⟨tr', htr', hret, _⟩ := transition_eq_some hs ht hpaths
    obtain rfl : tr' = tr := Option.some.inj (htr'.symm.trans htr)
    rw [hret]
    exact ((transitionPaths_spec hs ht).2 paths hpaths).1

/-- a branch inside a branch: `[0]` holds `A` and the branch `[0, 1]` of `B` and `C` -/
def nestedForest : CommitmentForest String :=
  ⟨[.branch [.leaf "A", .branch [.leaf "B", .leaf "C"]]]⟩

def nestedPacked : Cut := {NodePath.root 0}

def nestedOpened : Cut :=
  BTreeSet.ofList [(NodePath.root 0).child 0, ((NodePath.root 0).child 1).child 0,
    ((NodePath.root 0).child 1).child 1]

theorem transition_replays_nested :
    ((nestedForest.transition nestedPacked nestedOpened).isSome = true ↔
        ∃ cut, nestedForest.Reachable nestedPacked cut ∧ nestedOpened ⊆ cut) ∧
      ∀ tr, nestedForest.transition nestedPacked nestedOpened = some tr →
        (∃ opened packed,
          (tr.branchesToOpen.map NodeRef.path).foldlM nestedForest.open nestedPacked = some opened ∧
          (tr.branchesToPack.map NodeRef.path).foldlM nestedForest.pack opened = some packed ∧
          nestedOpened ⊆ packed) ∧
        tr.retained.map NodeRef.path =
          (nestedOpened.filter fun p => decide (p ∈ nestedPacked)).toList :=
  transition_replays nestedForest nestedPacked nestedOpened (by decide) (by decide)

/-- parents are opened first, children packed first -/
example :
    ((nestedForest.transition nestedPacked nestedOpened).map fun tr =>
      tr.branchesToOpen.map NodeRef.path) = some [NodePath.root 0, (NodePath.root 0).child 1] ∧
    ((nestedForest.transition nestedOpened nestedPacked).map fun tr =>
      tr.branchesToPack.map NodeRef.path) = some [(NodePath.root 0).child 1, NodePath.root 0] := by
  decide

end CommitmentForest
end Argent.Routing
