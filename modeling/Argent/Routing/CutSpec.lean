import Argent.Routing.Locations

/-!
# Which nodes a planned cut selects

The cut made out of the actors that are needed and the actors that are exposed.

* `Selects`              leaves of standalone actors, packed families, opened families;
* `mem_exposeActors`     **`cut_for_needs` followed by `expose_actors` selects exactly these**;
* `Selects.valid`        a selected cut is valid;
* `Selects.covers`       it covers everything that is needed;
* `Selects.derivable`    a cut with fewer demands is derivable from one with more.
-/

set_option linter.unusedSectionVars false
set_option linter.unusedVariables false

namespace Argent.Routing
variable {Actor : Type*} [LinearOrder Actor]
variable {g : RouteGraph Actor} {families : Families Actor} {familyByActor : BTreeMap Actor Nat}
  {f : CommitmentForest Actor} {locations : CommitmentLocations Actor}

/-- the nodes selected for the needed actors once the exposed ones are opened -/
inductive Selects (families : Families Actor) (familyByActor : BTreeMap Actor Nat)
    (locations : CommitmentLocations Actor) (need exposed : Actor → Prop) : NodePath → Prop
  | standalone {a : Actor} : familyByActor.get a = none → need a ∨ exposed a →
      Selects families familyByActor locations need exposed (locations.actorPath a)
  | packed {a : Actor} {k : Nat} : need a → familyByActor.get a = some k →
      (∀ b, exposed b → familyByActor.get b ≠ some k) →
      Selects families familyByActor locations need exposed (locations.familyPath k)
  | opened {k : Nat} {fam : List Actor} {a b : Actor} : exposed b →
      familyByActor.get b = some k → families[k]? = some fam → a ∈ fam →
      Selects families familyByActor locations need exposed (locations.actorPath a)

/-- what the exposure of the actors of `l` leaves in the cut -/
theorem mem_foldl_exposeStep (hg : Groups g families familyByActor)
    (h : Located g families familyByActor f locations) (l : List Actor)
    (hl : ∀ a ∈ l, a ∈ g.actors) (e : Exposure) (x : NodePath) :
    x ∈ (l.foldl (exposeStep families familyByActor locations) e).cut ↔
      (∃ a ∈ l, familyByActor.get a = none ∧ x = locations.actorPath a) ∨
      (∃ b ∈ l, ∃ k fam, familyByActor.get b = some k ∧ k ∉ e.openedFamilies ∧
        families[k]? = some fam ∧ ∃ a ∈ fam, x = locations.actorPath a) ∨
      x ∈ e.cut ∧ ∀ b ∈ l, ∀ k, familyByActor.get b = some k → k ∉ e.openedFamilies →
        x ≠ locations.familyPath k := by
  induction l generalizing e with
  | nil => simp
  | cons actor l ih =>
    have hactor : actor ∈ g.actors := hl actor List.mem_cons_self
    rw [List.foldl_cons, ih fun a ha => hl a (List.mem_cons_of_mem _ ha)]
    cases hk : familyByActor.get actor with
    | none =>
      -- the new leaf is no family branch, so no later exposure removes it
      have hne : ∀ b ∈ l, ∀ k, familyByActor.get b = some k →
          locations.actorPath actor ≠ locations.familyPath k := by
        intro b _ k hb
        obtain ⟨fam, hf, _⟩ := hg.get_iff.mp hb
        exact h.actorPath_ne_familyPath hg hactor hf
      simp only [exposeStep, hk, BTreeSet.mem_insert, List.exists_mem_cons_iff,
        List.forall_mem_cons, true_and, reduceCtorEq, false_and, exists_false, false_or,
        IsEmpty.forall_iff, implies_true]
      constructor
      · rintro (ha | hb | ⟨rfl | hx, hrem⟩)
        · exact Or.inl (Or.inr ha)
        · exact Or.inr (Or.inl hb)
        · exact Or.inl (Or.inl rfl)
        · exact Or.inr (Or.inr ⟨hx, hrem⟩)
      · rintro ((rfl | ha) | hb | ⟨hx, hrem⟩)
        · exact Or.inr (Or.inr ⟨Or.inl rfl, fun b hb k hbk _ => hne b hb k hbk⟩)
        · exact Or.inl ha
        · exact Or.inr (Or.inl hb)
        · exact Or.inr (Or.inr ⟨Or.inr hx, hrem⟩)
    | some k =>
      obtain ⟨fam, hf, _⟩ := hg.get_iff.mp hk
      by_cases hopen : k ∈ e.openedFamilies
      · simp only [exposeStep, hk, if_pos hopen, List.exists_mem_cons_iff, List.forall_mem_cons,
          reduceCtorEq, false_and, false_or, Option.some.injEq]
        constructor
        · rintro (ha | hb | ⟨hx, hrem⟩)
          · exact Or.inl ha
          · exact Or.inr (Or.inl (Or.inr hb))
          · exact Or.inr (Or.inr ⟨hx, fun l hl hn => absurd (hl ▸ hopen) hn, hrem⟩)
        · rintro (ha | (⟨l, _, hl, hn, _⟩ | hb) | ⟨hx, _, hrem⟩)
          · exact Or.inl ha
          · exact absurd (hl ▸ hopen) hn
          · exact Or.inr (Or.inl hb)
          · exact Or.inr (Or.inr ⟨hx, hrem⟩)
      · have hleaf : ∀ a ∈ fam, ∀ l, (∃ fam', families[l]? = some fam') →
            locations.actorPath a ≠ locations.familyPath l := by
          rintro a ha l ⟨fam', hl⟩
          exact h.actorPath_ne_familyPath hg (hg.actors hf a ha) hl
        simp only [exposeStep, hk, if_neg hopen, hf, Option.getD_some, BTreeSet.mem_insert,
          BTreeSet.mem_extend, BTreeSet.mem_erase, List.mem_map, List.exists_mem_cons_iff,
          List.forall_mem_cons, reduceCtorEq, false_and, false_or, Option.some.injEq, not_or]
        constructor
        · rintro (ha | ⟨b, hb, l, fam', hbl, ⟨_, hn⟩, hl, hx⟩ | ⟨⟨hx, hxk⟩ | ⟨a, ha, rfl⟩, hrem⟩)
          · exact Or.inl ha
          · exact Or.inr (Or.inl (Or.inr ⟨b, hb, l, fam', hbl, hn, hl, hx⟩))
          · refine Or.inr (Or.inr ⟨hx, fun l hl _ => hl ▸ hxk, fun b hb l hbl hn => ?_⟩)
            by_cases hlk : l = k
            · exact hlk ▸ hxk
            · exact hrem b hb l hbl ⟨hlk, hn⟩
          · exact Or.inr (Or.inl (Or.inl ⟨k, fam, rfl, hopen, hf, a, ha, rfl⟩))
        · rintro (ha | (⟨l, fam', hl, _, hfam', a, ha, rfl⟩ | ⟨b, hb, l, fam', hbl, hn, hfam', a, ha, rfl⟩) |
            ⟨hx, hxk, hrem⟩)
          · exact Or.inl ha
          · subst hl
            obtain rfl := Option.some.inj (hf.symm.trans hfam')
            refine Or.inr (Or.inr ⟨Or.inr ⟨a, ha, rfl⟩, fun b _ l hbl _ => ?_⟩)
            obtain ⟨fam'', hl, _⟩ := hg.get_iff.mp hbl
            exact hleaf a ha l ⟨fam'', hl⟩
          · by_cases hlk : l = k
            · subst hlk
              obtain rfl := Option.some.inj (hf.symm.trans hfam')
              refine Or.inr (Or.inr ⟨Or.inr ⟨a, ha, rfl⟩, fun b _ l hbl _ => ?_⟩)
              obtain ⟨fam'', hl, _⟩ := hg.get_iff.mp hbl
              exact hleaf a ha l ⟨fam'', hl⟩
            · exact Or.inr (Or.inl ⟨b, hb, l, fam', hbl, ⟨hlk, hn⟩, hfam', a, ha, rfl⟩)
          · exact Or.inr (Or.inr ⟨Or.inl ⟨hx, hxk k rfl hopen⟩,
              fun b hb l hbl hn => hrem b hb l hbl hn.2⟩)

theorem mem_cutForNeeds {actorNeeds : BTreeSet Actor} {x : NodePath} :
    x ∈ cutForNeeds actorNeeds familyByActor locations ↔
      (∃ a ∈ actorNeeds, familyByActor.get a = none ∧ x = locations.actorPath a) ∨
      ∃ a ∈ actorNeeds, ∃ k, familyByActor.get a = some k ∧ x = locations.familyPath k := by
  unfold cutForNeeds
  rw [BTreeSet.mem_ofList, List.mem_map]
  constructor
  · rintro ⟨a, ha, rfl⟩
    cases hk : familyByActor.get a with
    | none => exact Or.inl ⟨a, ha, hk, rfl⟩
    | some k => exact Or.inr ⟨a, ha, k, hk, rfl⟩
  · rintro (⟨a, ha, hk, rfl⟩ | ⟨a, ha, k, hk, rfl⟩)
    · exact ⟨a, ha, by rw [hk]⟩
    · exact ⟨a, ha, by rw [hk]⟩

/-- **The needs with the exposed actors opened** are the selected nodes. -/
theorem mem_exposeActors (hg : Groups g families familyByActor)
    (h : Located g families familyByActor f locations) {needs exposed : BTreeSet Actor}
    (hn : ∀ a ∈ needs, a ∈ g.actors) (he : ∀ a ∈ exposed, a ∈ g.actors) (x : NodePath) :
    x ∈ exposeActors (cutForNeeds needs familyByActor locations) exposed families familyByActor
        locations ↔
      Selects families familyByActor locations (· ∈ needs) (· ∈ exposed) x := by
  unfold exposeActors
  rw [mem_foldl_exposeStep hg h exposed.toList he]
  constructor
  · rintro (⟨a, ha, hk, rfl⟩ | ⟨b, hb, k, fam, hk, _, hf, a, ha, rfl⟩ | ⟨hx, hrem⟩)
    · exact .standalone hk (Or.inr ha)
    · exact .opened hb hk hf ha
    · rcases mem_cutForNeeds.mp hx with ⟨a, ha, hk, rfl⟩ | ⟨a, ha, k, hk, rfl⟩
      · exact .standalone hk (Or.inl ha)
      · exact .packed ha hk fun b hb hbk => hrem b hb k hbk (BTreeSet.not_mem_empty k) rfl
  · intro hx
    cases hx with
    | @standalone a hk ha =>
      rcases ha with ha | ha
      · refine Or.inr (Or.inr ⟨mem_cutForNeeds.mpr (Or.inl ⟨a, ha, hk, rfl⟩), ?_⟩)
        intro b _ k hb _
        obtain ⟨fam, hf, _⟩ := hg.get_iff.mp hb
        exact h.actorPath_ne_familyPath hg (hn a ha) hf
      · exact Or.inl ⟨a, ha, hk, rfl⟩
    | @packed a k ha hk hnot =>
      refine Or.inr (Or.inr ⟨mem_cutForNeeds.mpr (Or.inr ⟨a, ha, k, hk, rfl⟩), ?_⟩)
      intro b hb l hbl _ heq
      obtain ⟨fam, hf, _⟩ := hg.get_iff.mp hk
      obtain ⟨fam', hf', _⟩ := hg.get_iff.mp hbl
      obtain rfl := h.familyPath_inj hg hf hf' heq
      exact hnot b hb hbl
    | @opened k fam a b hb hk hf ha =>
      exact Or.inr (Or.inl ⟨b, hb, k, fam, hk, BTreeSet.not_mem_empty k, hf, a, ha, rfl⟩)

/-! ## what a selected cut guarantees -/

namespace Selects
variable {need exposed : Actor → Prop}

theorem leaf (hg : Groups g families familyByActor) {a : Actor} (ha : exposed a) :
    Selects families familyByActor locations need exposed (locations.actorPath a) := by
  cases hk : familyByActor.get a with
  | none => exact .standalone hk (Or.inr ha)
  | some k =>
    obtain ⟨fam, hf, hmem⟩ := hg.get_iff.mp hk
    exact .opened ha hk hf hmem

/-- a needed actor appears directly or inside its packed family -/
theorem covers (hg : Groups g families familyByActor) {a : Actor} (ha : need a) :
    Selects families familyByActor locations need exposed (locations.actorPath a) ∨
      ∃ k, familyByActor.get a = some k ∧
        Selects families familyByActor locations need exposed (locations.familyPath k) := by
  cases hk : familyByActor.get a with
  | none => exact Or.inl (.standalone hk (Or.inl ha))
  | some k =>
    by_cases hopen : ∃ b, exposed b ∧ familyByActor.get b = some k
    · obtain ⟨b, hb, hbk⟩ := hopen
      obtain ⟨fam, hf, hmem⟩ := hg.get_iff.mp hk
      exact Or.inl (.opened hb hbk hf hmem)
    · exact Or.inr ⟨k, rfl, .packed ha hk fun b hb hbk => hopen ⟨b, hb, hbk⟩⟩

section
variable (hg : Groups g families familyByActor)
  (h : Located g families familyByActor f locations)
  (hn : ∀ a, need a → a ∈ g.actors) (he : ∀ a, exposed a → a ∈ g.actors)
include hg h hn he

/-- a selected branch: a member is needed and none is exposed -/
theorem of_familyPath {k : Nat} {fam : List Actor} (hk : families[k]? = some fam)
    (hs : Selects families familyByActor locations need exposed (locations.familyPath k)) :
    (∃ a ∈ fam, need a) ∧ ∀ a ∈ fam, ¬ exposed a := by
  generalize hp : locations.familyPath k = p at hs
  cases hs with
  | @standalone a _ ha =>
    exact absurd hp.symm (h.actorPath_ne_familyPath hg (ha.elim (hn a) (he a)) hk)
  | @packed a l ha hl hnot =>
    obtain ⟨fam', hf', hmem⟩ := hg.get_iff.mp hl
    obtain rfl := h.familyPath_inj hg hk hf' hp
    obtain rfl := Option.some.inj (hk.symm.trans hf')
    exact ⟨⟨a, hmem, ha⟩, fun b hb hex => hnot b hex (hg.get_of_mem hk hb)⟩
  | @opened l fam' a b _ _ hf' ha =>
    exact absurd hp.symm (h.actorPath_ne_familyPath hg (hg.actors hf' a ha) hk)

/-- a selected leaf: standalone and demanded, or a member of a family with an exposed actor -/
theorem of_actorPath {a : Actor} (ha : a ∈ g.actors)
    (hs : Selects families familyByActor locations need exposed (locations.actorPath a)) :
    (familyByActor.get a = none ∧ (need a ∨ exposed a)) ∨
      ∃ (k : Nat) (fam : List Actor), families[k]? = some fam ∧ a ∈ fam ∧ ∃ b ∈ fam, exposed b := by
  generalize hp : locations.actorPath a = p at hs
  cases hs with
  | @standalone b hb hd =>
    obtain rfl := h.actorPath_inj hg ha (hd.elim (hn b) (he b)) hp
    exact Or.inl ⟨hb, hd⟩
  | @packed b k _ hk _ =>
    obtain ⟨fam, hf, _⟩ := hg.get_iff.mp hk
    exact absurd hp (h.actorPath_ne_familyPath hg ha hf)
  | @opened k fam b c hc hck hf hb =>
    obtain rfl := h.actorPath_inj hg ha (hg.actors hf b hb) hp
    obtain ⟨fam', hf', hmem⟩ := hg.get_iff.mp hck
    obtain rfl := Option.some.inj (hf.symm.trans hf')
    exact Or.inr ⟨k, fam, hf, hb, c, hmem, hc⟩

theorem valid :
    f.branching.Valid {x | Selects families familyByActor locations need exposed x} := by
  intro p hp q hq hanc
  rcases h.anc_cases hg hanc with rfl | ⟨k, fam, hf, a, ha, rfl, rfl⟩
  · rfl
  · obtain ⟨_, hnot⟩ := of_familyPath hg h hn he hf hp
    have hka := hg.get_of_mem hf ha
    rcases of_actorPath hg h hn he (hg.actors hf a ha) hq with ⟨hnone, _⟩ | ⟨l, fam', hl, hmem, b, hb, hex⟩
    · rw [hka] at hnone
      cases hnone
    · obtain rfl := hg.unique hf hl ha hmem
      obtain rfl := Option.some.inj (hf.symm.trans hl)
      exact absurd hex (hnot b hb)

theorem node {x : NodePath}
    (hs : Selects families familyByActor locations need exposed x) : (f.node x).isSome = true := by
  cases hs with
  | @standalone a _ ha => rw [h.leaf_node hg (ha.elim (hn a) (he a))]; rfl
  | packed _ hk _ =>
    obtain ⟨fam, hf, _⟩ := hg.get_iff.mp hk
    rw [h.branch_node hf]
    rfl
  | @opened k fam a b _ _ hf ha => rw [h.leaf_node hg (hg.actors hf a ha)]; rfl

end

/-- **Derivability.**  Whoever needs all that another cut demands can derive that cut. -/
theorem derivable (hg : Groups g families familyByActor)
    (h : Located g families familyByActor f locations) {need' exposed' : Actor → Prop}
    (hdemand : ∀ a, need a ∨ exposed a → need' a) {x : NodePath}
    (hs : Selects families familyByActor locations need exposed x) :
    f.branching.Derivable {x | Selects families familyByActor locations need' exposed' x} x := by
  cases hs with
  | @standalone a hk ha =>
    exact .under (Selects.standalone hk (Or.inl (hdemand a ha))) (Branching.Anc.refl _)
  | @packed a k ha hk hnot =>
    obtain ⟨fam, hf, hmem⟩ := hg.get_iff.mp hk
    by_cases hopen : ∃ b, exposed' b ∧ familyByActor.get b = some k
    · -- the source opened the family: all children are there to be packed
      obtain ⟨b, hb, hbk⟩ := hopen
      refine .pack ⟨_, (h.mem_kids hf).mpr ⟨a, hmem, rfl⟩⟩ fun c hc => ?_
      obtain ⟨a', ha', rfl⟩ := (h.mem_kids hf).mp hc
      exact .under (Selects.opened hb hbk hf ha') (Branching.Anc.refl _)
    · exact .under (Selects.packed (hdemand a (Or.inl ha)) hk fun b hb hbk => hopen ⟨b, hb, hbk⟩)
        (Branching.Anc.refl _)
  | @opened k fam a b hb hk hf ha =>
    by_cases hopen : ∃ c, exposed' c ∧ familyByActor.get c = some k
    · obtain ⟨c, hc, hck⟩ := hopen
      exact .under (Selects.opened hc hck hf ha) (Branching.Anc.refl _)
    · -- the source keeps the family packed: the leaf lies under its branch
      refine .under (Selects.packed (hdemand b (Or.inr hb)) hk fun c hc hck => hopen ⟨c, hc, hck⟩) ?_
      exact Branching.Anc.kid ((h.mem_kids hf).mpr ⟨a, ha, rfl⟩)

end Selects

end Argent.Routing
