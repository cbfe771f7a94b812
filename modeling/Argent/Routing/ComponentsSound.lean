import Argent.Routing.Graph
import Mathlib.Logic.Relation

/-!
# Weak components

`components` partitions a domain into its weakly connected parts.

* `Linked`               an emit edge between two actors of the domain, in either direction;
* `mem_adjacency`        the recorded neighbors are the linked actors;
* `TraversalInv`         what holds whenever the traversal of one component pops;
* `SearchInv`            what holds between two components;
* `components_spec`      **every actor of the domain lies in one component**, the set of actors
                         connected to it; gates are members reached from outside the domain.
-/

set_option linter.unusedSectionVars false
set_option linter.unusedVariables false

namespace Argent.Routing
variable {Actor : Type*} [LinearOrder Actor]

namespace RouteGraph
variable (g : RouteGraph Actor) (domain : BTreeSet Actor)

/-- an emit edge between two actors of the domain, in either direction -/
def Linked (a b : Actor) : Prop := a ∈ domain ∧ b ∈ domain ∧ a ≠ b ∧ (g.Emits a b ∨ g.Emits b a)

/-- linked through any number of edges -/
def Connected : Actor → Actor → Prop := Relation.ReflTransGen (g.Linked domain)

variable {g domain}

theorem Linked.symm {a b : Actor} (h : g.Linked domain a b) : g.Linked domain b a :=
  ⟨h.2.1, h.1, h.2.2.1.symm, h.2.2.2.symm⟩

theorem Connected.symm {a b : Actor} (h : g.Connected domain a b) : g.Connected domain b a := by
  induction h with
  | refl => exact Relation.ReflTransGen.refl
  | tail _ hbc ih => exact Relation.ReflTransGen.head hbc.symm ih

theorem Connected.mem {a b : Actor} (h : g.Connected domain a b) (ha : a ∈ domain) :
    b ∈ domain := by
  induction h with
  | refl => exact ha
  | tail _ hbc _ => exact hbc.2.1

/-! ## the adjacency -/

/-- the emit edges whose target lies in the domain, in the order of the loops -/
def domainEdges (g : RouteGraph Actor) (domain : BTreeSet Actor) : List (Actor × Actor) :=
  g.emits.entries.flatMap fun entry =>
    (entry.2.filter fun target => decide (target ∈ domain)).toList.map fun target =>
      (entry.1, target)

theorem mem_domainEdges {s t : Actor} :
    (s, t) ∈ domainEdges g domain ↔ g.Emits s t ∧ t ∈ domain := by
  unfold domainEdges Emits emitTargets BTreeMap.getD
  rw [List.mem_flatMap]
  constructor
  · rintro ⟨⟨s', targets⟩, hentry, hmem⟩
    obtain ⟨t', ht', heq⟩ := List.mem_map.mp hmem
    obtain ⟨rfl, rfl⟩ := Prod.mk.inj heq
    obtain ⟨h1, h2⟩ := BTreeSet.mem_filter.mp ht'
    rw [BTreeMap.mem_entries.mp hentry]
    exact ⟨h1, by simpa using h2⟩
  · rintro ⟨h1, h2⟩
    cases hg : g.emits.get s with
    | none => rw [hg] at h1; exact absurd h1 (BTreeSet.not_mem_empty t)
    | some targets =>
      rw [hg] at h1
      refine ⟨(s, targets), BTreeMap.mem_entries.mpr hg, List.mem_map.mpr ⟨t, ?_, rfl⟩⟩
      exact BTreeSet.mem_filter.mpr ⟨h1, by simpa using h2⟩

theorem adjacency_eq (g : RouteGraph Actor) (domain : BTreeSet Actor) :
    g.adjacency domain = (domainEdges g domain).foldl
      (fun adj edge => adjacencyEdge domain edge.1 adj edge.2)
      ⟨domain.toList.foldl (fun m actor => m.insert actor ∅) ∅, []⟩ := by
  unfold adjacency domainEdges
  rw [List.foldl_flatMap]
  simp only [List.foldl_map]

theorem getD_foldl_insert_empty (l : List Actor) (m : BTreeMap Actor (BTreeSet Actor))
    (hm : ∀ a, m.getD a = ∅) (a : Actor) :
    (l.foldl (fun m actor => m.insert actor ∅) m).getD a = ∅ := by
  induction l generalizing m with
  | nil => exact hm a
  | cons x l ih =>
    refine ih (m.insert x ∅) fun b => ?_
    unfold BTreeMap.getD
    rw [BTreeMap.get_insert]
    split_ifs
    · rfl
    · exact hm b

/-- what the loop over the edges `l` adds to the adjacency -/
theorem foldl_adjacencyEdge (l : List (Actor × Actor)) (hl : ∀ e ∈ l, e.2 ∈ domain)
    (adj : Adjacency Actor) (a b : Actor) :
    (b ∈ (l.foldl (fun adj edge => adjacencyEdge domain edge.1 adj edge.2) adj).neighbors.getD a ↔
        b ∈ adj.neighbors.getD a ∨
          a ∈ domain ∧ b ∈ domain ∧ a ≠ b ∧ ((a, b) ∈ l ∨ (b, a) ∈ l)) ∧
      (b ∈ (l.foldl (fun adj edge => adjacencyEdge domain edge.1 adj edge.2) adj).gates ↔
        b ∈ adj.gates ∨ ∃ s, (s, b) ∈ l ∧ s ∉ domain) := by
  induction l generalizing adj with
  | nil => simp
  | cons e l ih =>
    obtain ⟨s, t⟩ := e
    have ht : t ∈ domain := hl (s, t) List.mem_cons_self
    obtain ⟨ih1, ih2⟩ := ih (fun e he => hl e (List.mem_cons_of_mem _ he))
      (adjacencyEdge domain s adj t)
    rw [List.foldl_cons, ih1, ih2]
    -- one edge: dropped, recorded in both directions, or a gate
    have hedge : (b ∈ (adjacencyEdge domain s adj t).neighbors.getD a ↔ b ∈ adj.neighbors.getD a ∨
          s ≠ t ∧ s ∈ domain ∧ (a = s ∧ b = t ∨ a = t ∧ b = s)) ∧
        (b ∈ (adjacencyEdge domain s adj t).gates ↔ b ∈ adj.gates ∨
          s ≠ t ∧ s ∉ domain ∧ b = t) := by
      unfold adjacencyEdge
      split_ifs with h1 h2
      · simp [h1]
      · refine ⟨?_, by simp [h2]⟩
        simp only [BTreeMap.getD_modify]
        by_cases hat : a = t
        · subst hat
          have hne : a ≠ s := fun e => h1 e.symm
          simp only [if_true, if_neg hne, BTreeSet.mem_insert]
          simp only [h1, h2, hne, ne_eq, not_false_iff, true_and, false_and, false_or]
          exact or_comm
        · by_cases has : a = s
          · subst has
            simp only [if_neg hat, if_true, BTreeSet.mem_insert]
            simp only [hat, h2, ne_eq, not_false_iff, true_and, false_and, or_false]
            exact or_comm
          · simp [hat, has]
      · simp [h1, h2]
    rw [hedge.1, hedge.2]
    simp only [List.mem_cons, Prod.mk.injEq]
    constructor
    · constructor
      · rintro ((h | ⟨hne, hs, ⟨rfl, rfl⟩ | ⟨rfl, rfl⟩⟩) | ⟨ha, hb, hne, h⟩)
        · exact Or.inl h
        · exact Or.inr ⟨hs, ht, hne, Or.inl (Or.inl ⟨rfl, rfl⟩)⟩
        · exact Or.inr ⟨ht, hs, hne.symm, Or.inr (Or.inl ⟨rfl, rfl⟩)⟩
        · exact Or.inr ⟨ha, hb, hne, h.imp Or.inr Or.inr⟩
      · rintro (h | ⟨ha, hb, hne, (⟨rfl, rfl⟩ | h) | (⟨rfl, rfl⟩ | h)⟩)
        · exact Or.inl (Or.inl h)
        · exact Or.inl (Or.inr ⟨hne, ha, Or.inl ⟨rfl, rfl⟩⟩)
        · exact Or.inr ⟨ha, hb, hne, Or.inl h⟩
        · exact Or.inl (Or.inr ⟨hne.symm, hb, Or.inr ⟨rfl, rfl⟩⟩)
        · exact Or.inr ⟨ha, hb, hne, Or.inr h⟩
    · constructor
      · rintro ((h | ⟨hne, hs, rfl⟩) | ⟨x, hx, hxd⟩)
        · exact Or.inl h
        · exact Or.inr ⟨s, Or.inl ⟨rfl, rfl⟩, hs⟩
        · exact Or.inr ⟨x, Or.inr hx, hxd⟩
      · rintro (h | ⟨x, ⟨rfl, rfl⟩ | hx, hxd⟩)
        · exact Or.inl (Or.inl h)
        · exact Or.inl (Or.inr ⟨fun e => hxd (e ▸ ht), hxd, rfl⟩)
        · exact Or.inr ⟨x, hx, hxd⟩

theorem mem_adjacency (a b : Actor) :
    b ∈ (g.adjacency domain).neighbors.getD a ↔ g.Linked domain a b := by
  have hedges : ∀ e ∈ domainEdges g domain, e.2 ∈ domain := fun e he =>
    (mem_domainEdges.mp (show (e.1, e.2) ∈ domainEdges g domain from he)).2
  have hinit := getD_foldl_insert_empty domain.toList ∅ (fun a => rfl) a
  rw [adjacency_eq, (foldl_adjacencyEdge _ hedges _ a b).1, hinit, mem_domainEdges, mem_domainEdges]
  unfold Linked
  constructor
  · rintro (h | ⟨ha, hb, hne, h | h⟩)
    · exact absurd h (BTreeSet.not_mem_empty b)
    · exact ⟨ha, hb, hne, Or.inl h.1⟩
    · exact ⟨ha, hb, hne, Or.inr h.1⟩
  · rintro ⟨ha, hb, hne, h | h⟩
    · exact Or.inr ⟨ha, hb, hne, Or.inl ⟨h, hb⟩⟩
    · exact Or.inr ⟨ha, hb, hne, Or.inr ⟨h, ha⟩⟩

theorem mem_gates (b : Actor) :
    b ∈ (g.adjacency domain).gates ↔ b ∈ domain ∧ ∃ s, g.Emits s b ∧ s ∉ domain := by
  have hedges : ∀ e ∈ domainEdges g domain, e.2 ∈ domain := fun e he =>
    (mem_domainEdges.mp (show (e.1, e.2) ∈ domainEdges g domain from he)).2
  rw [adjacency_eq, (foldl_adjacencyEdge _ hedges _ b b).2]
  constructor
  · rintro (h | ⟨s, hs, hsd⟩)
    · exact absurd h List.not_mem_nil
    · obtain ⟨h1, h2⟩ := mem_domainEdges.mp hs
      exact ⟨h2, s, h1, hsd⟩
  · rintro ⟨hb, s, hs, hsd⟩
    exact Or.inr ⟨s, mem_domainEdges.mpr ⟨hs, hb⟩, hsd⟩

/-! ## the traversal of one component -/

/-- queueing assigns the listed actors that belong to no component yet -/
theorem queueNeighbors_spec (k : Nat) (l : List Actor) (t : Traversal Actor) :
    (queueNeighbors k t l).members = t.members ∧
      (∀ x, x ∈ (queueNeighbors k t l).pending ↔
        x ∈ t.pending ∨ x ∈ l ∧ t.componentByActor.get x = none) ∧
      ∀ x j, (queueNeighbors k t l).componentByActor.get x = some j ↔
        t.componentByActor.get x = some j ∨ x ∈ l ∧ t.componentByActor.get x = none ∧ j = k := by
  induction l generalizing t with
  | nil => exact ⟨rfl, fun x => by simp [queueNeighbors], fun x j => by simp [queueNeighbors]⟩
  | cons b l ih =>
    by_cases hb : t.componentByActor.contains b = true
    · have hb' : t.componentByActor.get b ≠ none := by
        intro hn
        unfold BTreeMap.contains at hb
        rw [hn] at hb
        cases hb
      have heq : queueNeighbors k t (b :: l) = queueNeighbors k t l := by
        show queueNeighbors k (if t.componentByActor.contains b then t else _) l = _
        rw [if_pos hb]
      obtain ⟨h1, h2, h3⟩ := ih t
      rw [heq]
      refine ⟨h1, fun x => ?_, fun x j => ?_⟩
      · rw [h2, List.mem_cons]
        by_cases hx : x = b
        · simp [hx, hb']
        · simp [hx]
      · rw [h3, List.mem_cons]
        by_cases hx : x = b
        · simp [hx, hb']
        · simp [hx]
    · have hb' : t.componentByActor.get b = none := by simpa [BTreeMap.contains] using hb
      have heq : queueNeighbors k t (b :: l) = queueNeighbors k
          { t with
            componentByActor := t.componentByActor.insert b k
            pending := b :: t.pending } l := by
        show queueNeighbors k (if t.componentByActor.contains b then t else _) l = _
        rw [if_neg hb]
      obtain ⟨h1, h2, h3⟩ := ih { t with
        componentByActor := t.componentByActor.insert b k
        pending := b :: t.pending }
      rw [heq]
      refine ⟨h1, fun x => ?_, fun x j => ?_⟩
      · rw [h2, List.mem_cons, List.mem_cons, BTreeMap.get_insert]
        by_cases hx : x = b
        · simp [hx, hb']
        · simp [hx]
      · rw [h3, List.mem_cons, BTreeMap.get_insert]
        by_cases hx : x = b
        · simp [hx, hb', eq_comm]
        · simp [hx]

/-- What holds whenever the traversal from `seed` pops: its members and pending actors are new,
connected to the seed, and closed under links up to the pending ones. -/
structure TraversalInv (g : RouteGraph Actor) (domain : BTreeSet Actor)
    (assigned : BTreeMap Actor Nat) (seed : Actor) (k : Nat) (t : Traversal Actor) : Prop where
  index : ∀ a j, t.componentByActor.get a = some j ↔
    assigned.get a = some j ∨ j = k ∧ (a ∈ t.members ∨ a ∈ t.pending)
  fresh : ∀ a, a ∈ t.members ∨ a ∈ t.pending → assigned.get a = none
  closed : ∀ a ∈ t.members, ∀ b, g.Linked domain a b → b ∈ t.members ∨ b ∈ t.pending
  connected : ∀ a, a ∈ t.members ∨ a ∈ t.pending → g.Connected domain seed a
  seed_mem : seed ∈ t.members ∨ seed ∈ t.pending

section
variable {assigned : BTreeMap Actor Nat} {seed : Actor} {k : Nat}

/-- one pop: the actor becomes a member and its new neighbors are queued -/
theorem TraversalInv.pop
    (hassigned : ∀ a b, g.Linked domain a b → assigned.get a = none → assigned.get b = none)
    {t : Traversal Actor} {actor : Actor} {pending : List Actor} (hp : t.pending = actor :: pending)
    (h : TraversalInv g domain assigned seed k t) :
    TraversalInv g domain assigned seed k
      (queueNeighbors k { t with members := insert actor t.members, pending := pending }
        ((g.adjacency domain).neighbors.getD actor).toList) := by
  obtain ⟨hm, hpend, hget⟩ := queueNeighbors_spec k
    ((g.adjacency domain).neighbors.getD actor).toList
    { t with members := insert actor t.members, pending := pending }
  set t' := queueNeighbors k { t with members := insert actor t.members, pending := pending }
    ((g.adjacency domain).neighbors.getD actor).toList
  have hlink : ∀ x, x ∈ ((g.adjacency domain).neighbors.getD actor).toList ↔
      g.Linked domain actor x := fun x => mem_adjacency actor x
  have hold : ∀ a, (a ∈ insert actor t.members ∨ a ∈ pending) ↔ (a ∈ t.members ∨ a ∈ t.pending) := by
    intro a
    rw [hp, BTreeSet.mem_insert, List.mem_cons]
    tauto
  have hnew : ∀ a, (a ∈ t'.members ∨ a ∈ t'.pending) ↔
      (a ∈ t.members ∨ a ∈ t.pending) ∨ g.Linked domain actor a ∧ t.componentByActor.get a = none := by
    intro a
    rw [hm, hpend, hlink, ← hold a]
    show (a ∈ insert actor t.members ∨ a ∈ pending ∨ _) ↔ _
    tauto
  have hactor : actor ∈ t.members ∨ actor ∈ t.pending := Or.inr (by rw [hp]; simp)
  refine ⟨fun a j => ?_, fun a ha => ?_, fun a ha b hb => ?_, fun a ha => ?_, ?_⟩
  · rw [hget, hlink, hnew]
    show (t.componentByActor.get a = some j ∨
      g.Linked domain actor a ∧ t.componentByActor.get a = none ∧ j = k) ↔ _
    rw [h.index]
    tauto
  · rcases (hnew a).mp ha with ha | ⟨hl, _⟩
    · exact h.fresh a ha
    · exact hassigned actor a hl (h.fresh actor hactor)
  · rw [hnew]
    rw [hm] at ha
    rcases BTreeSet.mem_insert.mp ha with rfl | ha
    · -- a neighbor of the popped actor is new, or belongs to this component already
      cases hb' : t.componentByActor.get b with
      | none => exact Or.inr ⟨hb, rfl⟩
      | some j =>
        rcases (h.index b j).mp hb' with hb' | ⟨_, hb'⟩
        · rw [hassigned a b hb (h.fresh a hactor)] at hb'
          cases hb'
        · exact Or.inl hb'
    · exact Or.inl (h.closed a ha b hb)
  · rcases (hnew a).mp ha with ha | ⟨hl, _⟩
    · exact h.connected a ha
    · exact (h.connected actor hactor).tail hl
  · exact (hnew seed).mpr (Or.inl h.seed_mem)

/-- **The traversal of one component** keeps the invariant and empties the stack. -/
theorem traverse_spec
    (hassigned : ∀ a b, g.Linked domain a b → assigned.get a = none → assigned.get b = none)
    (t : Traversal Actor) (h : TraversalInv g domain assigned seed k t) :
    TraversalInv g domain assigned seed k (traverse (g.adjacency domain).neighbors k t) ∧
      (traverse (g.adjacency domain).neighbors k t).pending = [] := by
  induction t using traverse.induct (g.adjacency domain).neighbors k with
  | case1 t hp =>
    have heq : traverse (g.adjacency domain).neighbors k t = t := by
      rw [traverse]
      split
      · rfl
      · next actor pending hp' => rw [hp] at hp'; cases hp'
    rw [heq]
    exact ⟨h, hp⟩
  | case2 t actor pending hp ih =>
    have heq : traverse (g.adjacency domain).neighbors k t =
        traverse (g.adjacency domain).neighbors k
          (queueNeighbors k { t with members := insert actor t.members, pending := pending }
            ((g.adjacency domain).neighbors.getD actor).toList) := by
      rw [traverse]
      split
      · next hp' => rw [hp] at hp'; cases hp'
      · next actor' pending' hp' =>
        rw [hp] at hp'
        cases hp'
        rfl
    rw [heq]
    exact ih (h.pop hassigned hp)

theorem TraversalInv.members_iff {t : Traversal Actor}
    (h : TraversalInv g domain assigned seed k t) (hp : t.pending = []) (a : Actor) :
    a ∈ t.members ↔ g.Connected domain seed a := by
  have hnil : ∀ x, (x ∈ t.members ∨ x ∈ t.pending) → x ∈ t.members := fun x hx => by
    rw [hp] at hx
    exact hx.resolve_right List.not_mem_nil
  constructor
  · exact fun ha => h.connected a (Or.inl ha)
  · intro ha
    induction ha with
    | refl => exact hnil seed h.seed_mem
    | tail _ hbc ih => exact hnil _ (h.closed _ ih _ hbc)

end

/-! ## the loop over the domain -/

/-- what holds between two components, after the actors of `done` -/
structure SearchInv (g : RouteGraph Actor) (domain : BTreeSet Actor) (done : List Actor)
    (search : ComponentSearch Actor) : Prop where
  index : ∀ a k, search.componentByActor.get a = some k ↔
    ∃ c, search.components[k]? = some c ∧ a ∈ c.members
  classes : ∀ c ∈ search.components, c.gates = ∅ ∧
    ∃ s ∈ domain, ∀ a, a ∈ c.members ↔ g.Connected domain s a
  covered : ∀ a ∈ done, (search.componentByActor.get a).isSome = true

theorem SearchInv.step {done : List Actor} {search : ComponentSearch Actor}
    (h : SearchInv g domain done search) {actor : Actor} (hactor : actor ∈ domain) :
    SearchInv g domain (done ++ [actor])
      (componentStep (g.adjacency domain).neighbors search actor) := by
  unfold componentStep
  by_cases hc : search.componentByActor.contains actor = true
  · rw [if_pos hc]
    refine ⟨h.index, h.classes, fun a ha => ?_⟩
    rcases List.mem_append.mp ha with ha | ha
    · exact h.covered a ha
    · obtain rfl := List.mem_singleton.mp ha
      exact hc
  · rw [if_neg hc]
    have hnone : search.componentByActor.get actor = none := by
      simpa [BTreeMap.contains] using hc
    -- no link leaves the components found so far
    have hassigned : ∀ a b, g.Linked domain a b → search.componentByActor.get a = none →
        search.componentByActor.get b = none := by
      intro a b hab ha
      cases hb : search.componentByActor.get b with
      | none => rfl
      | some j =>
        obtain ⟨c, hcj, hmem⟩ := (h.index b j).mp hb
        obtain ⟨_, s, _, hs⟩ := h.classes c (List.mem_of_getElem? hcj)
        have hamem : a ∈ c.members := (hs a).mpr (((hs b).mp hmem).tail hab.symm)
        rw [(h.index a j).mpr ⟨c, hcj, hamem⟩] at ha
        cases ha
    have hinit : TraversalInv g domain search.componentByActor actor search.components.length
        ⟨search.componentByActor.insert actor search.components.length, ∅, [actor]⟩ := by
      refine ⟨fun a j => ?_, fun a ha => ?_, fun a ha => ?_, fun a ha => ?_, ?_⟩
      · rw [BTreeMap.get_insert]
        by_cases hx : a = actor
        · rw [if_pos hx, hx, hnone]
          simp [eq_comm]
        · rw [if_neg hx]
          simp [hx]
      · obtain rfl : a = actor := by simpa using ha
        exact hnone
      · exact absurd ha (BTreeSet.not_mem_empty a)
      · obtain rfl : a = actor := by simpa using ha
        exact Relation.ReflTransGen.refl
      · simp
    obtain ⟨ht, hpend⟩ := traverse_spec hassigned _ hinit
    show SearchInv g domain (done ++ [actor]) ⟨search.components ++ [⟨(traverse _ _ _).members, ∅⟩],
      (traverse _ _ _).componentByActor⟩
    generalize traverse (g.adjacency domain).neighbors search.components.length
      ⟨search.componentByActor.insert actor search.components.length, ∅, [actor]⟩ = t at ht hpend ⊢
    have hmem := ht.members_iff hpend
    have hget : ∀ a j, t.componentByActor.get a = some j ↔
        search.componentByActor.get a = some j ∨ j = search.components.length ∧ a ∈ t.members := by
      intro a j
      rw [ht.index, hpend]
      simp
    refine ⟨fun a j => ?_, fun c hcmem => ?_, fun a ha => ?_⟩
    · rw [hget, h.index]
      constructor
      · rintro (⟨c, hcj, hac⟩ | ⟨rfl, hat⟩)
        · refine ⟨c, ?_, hac⟩
          rw [List.getElem?_append_left (List.getElem?_eq_some_iff.mp hcj).1]
          exact hcj
        · exact ⟨⟨t.members, ∅⟩, by simp, hat⟩
      · rintro ⟨c, hcj, hac⟩
        rcases Nat.lt_or_ge j search.components.length with hlt | hge
        · rw [List.getElem?_append_left hlt] at hcj
          exact Or.inl ⟨c, hcj, hac⟩
        · rw [List.getElem?_append_right hge] at hcj
          obtain ⟨h0, h1⟩ := List.getElem?_eq_some_iff.mp hcj
          have h0' : j - search.components.length = 0 := by simpa using h0
          have hj : j = search.components.length := by omega
          refine Or.inr ⟨hj, ?_⟩
          have h1' : (⟨t.members, ∅⟩ : Component Actor) = c := by
            rw [← h1]
            simp
          rw [← h1'] at hac
          exact hac
    · rcases List.mem_append.mp hcmem with hcmem | hcmem
      · exact h.classes c hcmem
      · obtain rfl := List.mem_singleton.mp hcmem
        exact ⟨rfl, actor, hactor, hmem⟩
    · rcases List.mem_append.mp ha with ha | ha
      · obtain ⟨k, hk⟩ := Option.isSome_iff_exists.mp (h.covered a ha)
        show (t.componentByActor.get a).isSome = true
        rw [(hget a k).mpr (Or.inl hk)]
        rfl
      · obtain rfl := List.mem_singleton.mp ha
        show (t.componentByActor.get a).isSome = true
        rw [(hget a _).mpr (Or.inr ⟨rfl, (hmem a).mpr Relation.ReflTransGen.refl⟩)]
        rfl

theorem foldl_componentStep (l done : List Actor) (hl : ∀ a ∈ l, a ∈ domain)
    (search : ComponentSearch Actor) (h : SearchInv g domain done search) :
    SearchInv g domain (done ++ l)
      (l.foldl (componentStep (g.adjacency domain).neighbors) search) := by
  induction l generalizing done search with
  | nil =>
    rw [List.append_nil]
    exact h
  | cons actor l ih =>
    have heq : done ++ actor :: l = (done ++ [actor]) ++ l := by simp
    rw [heq]
    exact ih _ (fun a ha => hl a (List.mem_cons_of_mem _ ha)) _ (h.step (hl actor List.mem_cons_self))

/-! ## gates -/

theorem foldl_addGate (m : BTreeMap Actor Nat) (l : List Actor) (comps : List (Component Actor))
    (k : Nat) :
    (comps[k]? = none → (l.foldl (addGate m) comps)[k]? = none) ∧
      ∀ c, comps[k]? = some c → ∃ c', (l.foldl (addGate m) comps)[k]? = some c' ∧
        c'.members = c.members ∧
        ∀ b, b ∈ c'.gates ↔ b ∈ c.gates ∨ b ∈ l ∧ m.get b = some k := by
  induction l generalizing comps with
  | nil => exact ⟨fun h => h, fun c hc => ⟨c, hc, rfl, fun b => by simp⟩⟩
  | cons t l ih =>
    rw [List.foldl_cons]
    have hstep : (addGate m comps t)[k]? =
        (comps[k]?).map fun c => if m.get t = some k then { c with gates := insert t c.gates } else c := by
      unfold addGate
      cases hm : m.get t with
      | none => simp
      | some j =>
        simp only [List.getElem?_modify, Option.some.injEq]
        by_cases hjk : j = k
        · simp [hjk]
        · simp [hjk]
    obtain ⟨ih1, ih2⟩ := ih (addGate m comps t)
    refine ⟨fun hnone => ih1 (by rw [hstep, hnone]; rfl), fun c hc => ?_⟩
    rw [hc] at hstep
    obtain ⟨c', hc', hmem, hgates⟩ := ih2 _ hstep
    dsimp only at hmem hgates
    refine ⟨c', hc', ?_, fun b => ?_⟩
    · rw [hmem]
      split_ifs <;> rfl
    · rw [hgates, List.mem_cons]
      by_cases hm : m.get t = some k
      · rw [if_pos hm]
        simp only [BTreeSet.mem_insert]
        constructor
        · rintro ((rfl | hb) | ⟨hb, hbk⟩)
          · exact Or.inr ⟨Or.inl rfl, hm⟩
          · exact Or.inl hb
          · exact Or.inr ⟨Or.inr hb, hbk⟩
        · rintro (hb | ⟨rfl | hb, hbk⟩)
          · exact Or.inl (Or.inr hb)
          · exact Or.inl (Or.inl rfl)
          · exact Or.inr ⟨hb, hbk⟩
      · rw [if_neg hm]
        constructor
        · rintro (hb | ⟨hb, hbk⟩)
          · exact Or.inl hb
          · exact Or.inr ⟨Or.inr hb, hbk⟩
        · rintro (hb | ⟨rfl | hb, hbk⟩)
          · exact Or.inl hb
          · exact absurd hbk hm
          · exact Or.inr ⟨hb, hbk⟩

/-- the components of a domain: connected, disjoint, covering, with the gates among their members -/
structure Partition (g : RouteGraph Actor) (domain : BTreeSet Actor)
    (comps : List (Component Actor)) : Prop where
  covers : ∀ a ∈ domain, ∃ c ∈ comps, a ∈ c.members
  unique : ∀ {i j : Nat} {c c' : Component Actor}, comps[i]? = some c → comps[j]? = some c' →
    ∀ a, a ∈ c.members → a ∈ c'.members → i = j
  connected : ∀ c ∈ comps, ∃ s ∈ domain, ∀ a, a ∈ c.members ↔ g.Connected domain s a
  gates : ∀ c ∈ comps, ∀ b, b ∈ c.gates ↔ b ∈ c.members ∧ ∃ s, g.Emits s b ∧ s ∉ domain

theorem Partition.subset {comps : List (Component Actor)} (h : Partition g domain comps)
    {c : Component Actor} (hc : c ∈ comps) {a : Actor} (ha : a ∈ c.members) : a ∈ domain := by
  obtain ⟨s, hs, hmem⟩ := h.connected c hc
  exact ((hmem a).mp ha).mem hs

/-- **The components of a domain** partition it into its connected parts. -/
theorem components_spec (g : RouteGraph Actor) (domain : BTreeSet Actor) :
    Partition g domain (g.components domain) := by
  have hinit : SearchInv g domain [] (⟨[], ∅⟩ : ComponentSearch Actor) :=
    ⟨fun a k => by simp, fun _ h => absurd h List.not_mem_nil, fun _ h => absurd h List.not_mem_nil⟩
  have h := foldl_componentStep domain.toList [] (fun a ha => ha) _ hinit
  rw [List.nil_append] at h
  set search := domain.toList.foldl (componentStep (g.adjacency domain).neighbors)
    (⟨[], ∅⟩ : ComponentSearch Actor)
  have heq : g.components domain =
      (g.adjacency domain).gates.foldl (addGate search.componentByActor) search.components := rfl
  -- every component of the result comes from the search, at its index
  have hback : ∀ k c', (g.components domain)[k]? = some c' → ∃ c, search.components[k]? = some c ∧
      c'.members = c.members ∧ ∀ b, b ∈ c'.gates ↔ b ∈ c.gates ∨
        b ∈ (g.adjacency domain).gates ∧ search.componentByActor.get b = some k := by
    intro k c' hc'
    rw [heq] at hc'
    obtain ⟨h1, h2⟩ := foldl_addGate search.componentByActor (g.adjacency domain).gates
      search.components k
    cases hk : search.components[k]? with
    | none => rw [h1 hk] at hc'; cases hc'
    | some c =>
      obtain ⟨c'', hc'', hm, hg⟩ := h2 c hk
      obtain rfl := Option.some.inj (hc''.symm.trans hc')
      exact ⟨c, rfl, hm, hg⟩
  refine ⟨fun a ha => ?_, fun {i j c c'} hi hj a ha ha' => ?_, fun c hc => ?_, fun c hc b => ?_⟩
  · obtain ⟨k, hk⟩ := Option.isSome_iff_exists.mp (h.covered a ha)
    obtain ⟨c, hck, hac⟩ := (h.index a k).mp hk
    obtain ⟨c', hc', hm, _⟩ := (foldl_addGate search.componentByActor (g.adjacency domain).gates
      search.components k).2 c hck
    exact ⟨c', List.mem_of_getElem? hc', hm ▸ hac⟩
  · obtain ⟨d, hd, hdm, _⟩ := hback i c hi
    obtain ⟨d', hd', hdm', _⟩ := hback j c' hj
    have h1 := (h.index a i).mpr ⟨d, hd, hdm ▸ ha⟩
    have h2 := (h.index a j).mpr ⟨d', hd', hdm' ▸ ha'⟩
    exact Option.some.inj (h1.symm.trans h2)
  · obtain ⟨k, hk⟩ := List.mem_iff_getElem?.mp hc
    obtain ⟨d, hd, hdm, _⟩ := hback k c hk
    obtain ⟨_, s, hs, hmem⟩ := h.classes d (List.mem_of_getElem? hd)
    exact ⟨s, hs, fun a => by rw [hdm]; exact hmem a⟩
  · obtain ⟨k, hk⟩ := List.mem_iff_getElem?.mp hc
    obtain ⟨d, hd, hdm, hdg⟩ := hback k c hk
    obtain ⟨hempty, s, hs, hmem⟩ := h.classes d (List.mem_of_getElem? hd)
    rw [hdg, hempty, hdm, mem_gates, h.index]
    constructor
    · rintro (hb | ⟨⟨_, hout⟩, d', hd', hb⟩)
      · exact absurd hb (BTreeSet.not_mem_empty b)
      · obtain rfl := Option.some.inj (hd.symm.trans hd')
        exact ⟨hb, hout⟩
    · rintro ⟨hb, hout⟩
      exact Or.inr ⟨⟨((hmem b).mp hb).mem hs, hout⟩, d, hd, hb⟩

end RouteGraph
end Argent.Routing
