import Argent.Base.BTree
import Mathlib.Data.Finset.Union

/-!
# Route graphs

The graph of `routing/graph.rs`: actors with emit and consume relations, weak emit-components of a
domain with their inbound gates, and the templates every actor needs.

* `RouteGraph`         the graph; both relations stay inside the actor set;
* `RouteGraph.addEmitClique`   the synthetic edges of a cohort;
* `RouteGraph.components`      weak components and gates;
* `RouteGraph.needs`           the templates needed through emits and direct consumes.
-/

set_option linter.unusedSectionVars false
set_option linter.unusedVariables false

namespace Argent.Routing
variable {Actor : Type*} [LinearOrder Actor]

/-- a directed graph of actor emit and consume relations -/
structure RouteGraph (Actor : Type*) [LinearOrder Actor] where
  actors : BTreeSet Actor
  emits : BTreeMap Actor (BTreeSet Actor)
  consumes : BTreeMap Actor (BTreeSet Actor)
  emits_actors : ∀ {source target}, target ∈ emits.getD source → source ∈ actors ∧ target ∈ actors
  consumes_actors :
    ∀ {source target}, target ∈ consumes.getD source → source ∈ actors ∧ target ∈ actors

namespace RouteGraph

/-- `RouteGraph::default` -/
def empty : RouteGraph Actor where
  actors := ∅
  emits := ∅
  consumes := ∅
  emits_actors := fun h => absurd h (BTreeSet.not_mem_empty _)
  consumes_actors := fun h => absurd h (BTreeSet.not_mem_empty _)

def addActor (g : RouteGraph Actor) (actor : Actor) : RouteGraph Actor where
  actors := insert actor g.actors
  emits := g.emits
  consumes := g.consumes
  emits_actors := fun h =>
    ⟨BTreeSet.mem_insert.mpr (Or.inr (g.emits_actors h).1),
      BTreeSet.mem_insert.mpr (Or.inr (g.emits_actors h).2)⟩
  consumes_actors := fun h =>
    ⟨BTreeSet.mem_insert.mpr (Or.inr (g.consumes_actors h).1),
      BTreeSet.mem_insert.mpr (Or.inr (g.consumes_actors h).2)⟩

theorem insert_pair {actors : BTreeSet Actor} {m : BTreeMap Actor (BTreeSet Actor)}
    (hm : ∀ {s t}, t ∈ m.getD s → s ∈ actors ∧ t ∈ actors) (source target : Actor) {s t : Actor}
    (h : t ∈ (m.modify source (fun targets => insert target targets)).getD s) :
    s ∈ (insert target (insert source actors)) ∧ t ∈ (insert target (insert source actors)) := by
  rw [BTreeMap.getD_modify] at h
  simp only [BTreeSet.mem_insert]
  split_ifs at h with he
  · rcases BTreeSet.mem_insert.mp h with rfl | h
    · exact ⟨Or.inr (Or.inl he), Or.inl rfl⟩
    · exact ⟨Or.inr (Or.inr (he ▸ (hm h).1)), Or.inr (Or.inr (hm h).2)⟩
  · exact ⟨Or.inr (Or.inr (hm h).1), Or.inr (Or.inr (hm h).2)⟩

theorem weaken_pair {actors : BTreeSet Actor} {m : BTreeMap Actor (BTreeSet Actor)}
    (hm : ∀ {s t}, t ∈ m.getD s → s ∈ actors ∧ t ∈ actors) (source target : Actor) {s t : Actor}
    (h : t ∈ m.getD s) :
    s ∈ (insert target (insert source actors)) ∧ t ∈ (insert target (insert source actors)) := by
  simp only [BTreeSet.mem_insert]
  exact ⟨Or.inr (Or.inr (hm h).1), Or.inr (Or.inr (hm h).2)⟩

def addEmit (g : RouteGraph Actor) (source target : Actor) : RouteGraph Actor where
  actors := insert target (insert source g.actors)
  emits := g.emits.modify source fun targets => insert target targets
  consumes := g.consumes
  emits_actors := insert_pair g.emits_actors source target
  consumes_actors := weaken_pair g.consumes_actors source target

def addConsume (g : RouteGraph Actor) (source target : Actor) : RouteGraph Actor where
  actors := insert target (insert source g.actors)
  emits := g.emits
  consumes := g.consumes.modify source fun targets => insert target targets
  emits_actors := weaken_pair g.emits_actors source target
  consumes_actors := insert_pair g.consumes_actors source target

/-- the emit targets of `source` -/
def emitTargets (g : RouteGraph Actor) (source : Actor) : BTreeSet Actor := g.emits.getD source

/-- the actor templates consumed directly by `source` -/
def directConsumes (g : RouteGraph Actor) (source : Actor) : BTreeSet Actor :=
  g.consumes.getD source

/-- the emit relation -/
def Emits (g : RouteGraph Actor) (source target : Actor) : Prop := target ∈ g.emitTargets source

theorem emitTargets_actors {g : RouteGraph Actor} {source target : Actor}
    (h : target ∈ g.emitTargets source) : source ∈ g.actors ∧ target ∈ g.actors := g.emits_actors h

theorem directConsumes_actors {g : RouteGraph Actor} {source target : Actor}
    (h : target ∈ g.directConsumes source) : source ∈ g.actors ∧ target ∈ g.actors :=
  g.consumes_actors h

theorem mem_emitTargets_addEmit {g : RouteGraph Actor} {source target a x : Actor} :
    x ∈ (g.addEmit source target).emitTargets a ↔
      x ∈ g.emitTargets a ∨ a = source ∧ x = target := by
  show x ∈ (g.emits.modify source fun targets => insert target targets).getD a ↔ _
  rw [BTreeMap.getD_modify]
  by_cases ha : a = source
  · rw [if_pos ha, BTreeSet.mem_insert, ha, or_comm, and_iff_right rfl]
    rfl
  · rw [if_neg ha, or_iff_left fun h => ha h.1]
    rfl

theorem mem_directConsumes_addConsume {g : RouteGraph Actor} {source target a x : Actor} :
    x ∈ (g.addConsume source target).directConsumes a ↔
      x ∈ g.directConsumes a ∨ a = source ∧ x = target := by
  show x ∈ (g.consumes.modify source fun targets => insert target targets).getD a ↔ _
  rw [BTreeMap.getD_modify]
  by_cases ha : a = source
  · rw [if_pos ha, BTreeSet.mem_insert, ha, or_comm, and_iff_right rfl]
    rfl
  · rw [if_neg ha, or_iff_left fun h => ha h.1]
    rfl

/-! ## cohort cliques -/

/-- every member of the list emits all other members of the subset -/
def cliqueEmits (subset : BTreeSet Actor) (emits : BTreeMap Actor (BTreeSet Actor)) :
    List Actor → BTreeMap Actor (BTreeSet Actor)
  | [] => emits
  | source :: rest =>
    cliqueEmits subset
      (emits.modify source fun targets =>
        targets.extend (subset.toList.filter fun target => target != source)) rest

theorem mem_cliqueEmits (subset : BTreeSet Actor) (l : List Actor)
    (emits : BTreeMap Actor (BTreeSet Actor)) (s t : Actor) :
    t ∈ (cliqueEmits subset emits l).getD s ↔
      t ∈ emits.getD s ∨ s ∈ l ∧ t ∈ subset ∧ t ≠ s := by
  induction l generalizing emits with
  | nil => simp [cliqueEmits]
  | cons x l ih =>
    rw [cliqueEmits, ih, BTreeMap.getD_modify, List.mem_cons]
    by_cases he : s = x
    · subst he
      rw [if_pos rfl, BTreeSet.mem_extend, List.mem_filter, BTreeSet.mem_toList, bne_iff_ne]
      tauto
    · rw [if_neg he]
      tauto

/-- Synthetic emit edges in both directions between every distinct pair of an actor subset.  The
source asserts that the subset lies in the graph; `CommitmentPlan` calls it on validated cohorts. -/
def addEmitClique (g : RouteGraph Actor) (subset : BTreeSet Actor) : RouteGraph Actor :=
  if h : subset ⊆ g.actors then
    { g with
      emits := cliqueEmits subset g.emits subset.toList
      emits_actors := by
        intro s t hst
        rcases (mem_cliqueEmits subset subset.toList g.emits s t).mp hst with hst | ⟨hs, ht, _⟩
        · exact g.emits_actors hst
        · exact ⟨h s hs, h t ht⟩ }
  else g

@[simp] theorem addEmitClique_actors (g : RouteGraph Actor) (subset : BTreeSet Actor) :
    (g.addEmitClique subset).actors = g.actors := by
  unfold addEmitClique
  split_ifs <;> rfl

@[simp] theorem addEmitClique_directConsumes (g : RouteGraph Actor) (subset : BTreeSet Actor)
    (a : Actor) : (g.addEmitClique subset).directConsumes a = g.directConsumes a := by
  unfold addEmitClique
  split_ifs <;> rfl

theorem addEmitClique_emits {g : RouteGraph Actor} {subset : BTreeSet Actor}
    (h : subset ⊆ g.actors) (s t : Actor) :
    (g.addEmitClique subset).Emits s t ↔ g.Emits s t ∨ s ∈ subset ∧ t ∈ subset ∧ t ≠ s := by
  unfold addEmitClique
  rw [dif_pos h]
  exact mem_cliqueEmits subset subset.toList g.emits s t

/-! ## components -/

/-- one weakly connected emit component inside a selected graph domain -/
structure Component (Actor : Type*) [LinearOrder Actor] where
  members : BTreeSet Actor
  gates : BTreeSet Actor

/-- the undirected adjacency of the domain, and the targets reached from outside it -/
structure Adjacency (Actor : Type*) [LinearOrder Actor] where
  neighbors : BTreeMap Actor (BTreeSet Actor)
  gates : List Actor

/-- one emit edge whose target lies in the domain -/
def adjacencyEdge (domain : BTreeSet Actor) (source : Actor) (adj : Adjacency Actor)
    (target : Actor) : Adjacency Actor :=
  if source = target then adj
  else if source ∈ domain then
    { adj with
      neighbors := (adj.neighbors.modify source fun s => insert target s).modify target
        fun s => insert source s }
  else { adj with gates := adj.gates ++ [target] }

def adjacency (g : RouteGraph Actor) (domain : BTreeSet Actor) : Adjacency Actor :=
  g.emits.entries.foldl
    (fun adj entry =>
      (entry.2.filter fun target => decide (target ∈ domain)).toList.foldl
        (adjacencyEdge domain entry.1) adj)
    ⟨domain.toList.foldl (fun m actor => m.insert actor ∅) ∅, []⟩

/-- the traversal of one component: the component of every queued actor, the members popped so
far, and the pending stack, its top first -/
structure Traversal (Actor : Type*) [LinearOrder Actor] where
  componentByActor : BTreeMap Actor Nat
  members : BTreeSet Actor
  pending : List Actor

/-- queue the neighbors that belong to no component yet -/
def queueNeighbors (componentIndex : Nat) (t : Traversal Actor) (neighbors : List Actor) :
    Traversal Actor :=
  neighbors.foldl
    (fun t neighbor =>
      if t.componentByActor.contains neighbor then t
      else
        { t with
          componentByActor := t.componentByActor.insert neighbor componentIndex
          pending := neighbor :: t.pending })
    t

/-! `while let Some(actor) = pending.pop()`: every queued actor is newly assigned to the component,
so the pending stack and the unassigned neighbors together shrink. -/

section
variable (neighbors : BTreeMap Actor (BTreeSet Actor))

/-- all actors that occur as a neighbor -/
def neighborUniverse : Finset Actor :=
  neighbors.keys.toFinset.biUnion fun a => (neighbors.getD a).toFinset

def Traversal.measure (t : Traversal Actor) : Nat :=
  2 * ((neighborUniverse neighbors).filter fun a => t.componentByActor.contains a = false).card
    + t.pending.length

theorem mem_neighborUniverse {a b : Actor} (h : b ∈ neighbors.getD a) :
    b ∈ neighborUniverse neighbors := by
  refine Finset.mem_biUnion.mpr ⟨a, ?_, h⟩
  rw [BTreeSet.mem_toFinset, neighbors.mem_keys]
  unfold BTreeMap.getD at h
  cases hg : neighbors.get a with
  | none => rw [hg] at h; exact absurd h (BTreeSet.not_mem_empty b)
  | some s => rfl

theorem measure_queueNeighbors (k : Nat) (l : List Actor)
    (hl : ∀ b ∈ l, b ∈ neighborUniverse neighbors) (t : Traversal Actor) :
    (queueNeighbors k t l).measure neighbors ≤ t.measure neighbors := by
  induction l generalizing t with
  | nil => exact le_rfl
  | cons b l ih =>
    have hl' : ∀ x ∈ l, x ∈ neighborUniverse neighbors := fun x hx =>
      hl x (List.mem_cons_of_mem _ hx)
    show (queueNeighbors k (if t.componentByActor.contains b then t else _) l).measure neighbors ≤ _
    split_ifs with hb
    · exact ih hl' t
    · refine le_trans (ih hl' _) ?_
      -- `b` leaves the unassigned actors and enters the stack
      have hb' : t.componentByActor.contains b = false := by simpa using hb
      have hlt : ((neighborUniverse neighbors).filter fun a =>
            (t.componentByActor.insert b k).contains a = false).card
          < ((neighborUniverse neighbors).filter fun a =>
            t.componentByActor.contains a = false).card := by
        apply Finset.card_lt_card
        rw [Finset.ssubset_iff_of_subset]
        · refine ⟨b, Finset.mem_filter.mpr ⟨hl b (by simp), hb'⟩, fun hmem => ?_⟩
          have h1 := (Finset.mem_filter.mp hmem).2
          unfold BTreeMap.contains at h1
          rw [BTreeMap.get_insert_self] at h1
          cases h1
        · intro a ha
          obtain ⟨hau, hac⟩ := Finset.mem_filter.mp ha
          refine Finset.mem_filter.mpr ⟨hau, ?_⟩
          unfold BTreeMap.contains at hac ⊢
          rw [BTreeMap.get_insert] at hac
          split_ifs at hac
          · cases hac
          · exact hac
      unfold Traversal.measure
      simp only [List.length_cons]
      omega

/-- the traversal of one component -/
def traverse (componentIndex : Nat) (t : Traversal Actor) : Traversal Actor :=
  match h : t.pending with
  | [] => t
  | actor :: pending =>
    traverse componentIndex
      (queueNeighbors componentIndex { t with members := insert actor t.members, pending := pending }
        (neighbors.getD actor).toList)
termination_by t.measure neighbors
decreasing_by
  refine lt_of_le_of_lt (measure_queueNeighbors neighbors _ _
    (fun b hb => mem_neighborUniverse neighbors hb) _) ?_
  unfold Traversal.measure
  rw [h]
  simp

end

/-- the components found so far and the component of every assigned actor -/
structure ComponentSearch (Actor : Type*) [LinearOrder Actor] where
  components : List (Component Actor)
  componentByActor : BTreeMap Actor Nat

/-- one iteration of the loop over the domain -/
def componentStep (neighbors : BTreeMap Actor (BTreeSet Actor)) (search : ComponentSearch Actor)
    (actor : Actor) : ComponentSearch Actor :=
  if search.componentByActor.contains actor then search
  else
    let componentIndex := search.components.length
    let t := traverse neighbors componentIndex
      ⟨search.componentByActor.insert actor componentIndex, ∅, [actor]⟩
    ⟨search.components ++ [⟨t.members, ∅⟩], t.componentByActor⟩

/-- record one actor with an incoming edge from outside its component -/
def addGate (componentByActor : BTreeMap Actor Nat) (components : List (Component Actor))
    (target : Actor) : List (Component Actor) :=
  match componentByActor.get target with
  | none => components
  | some componentIndex =>
    components.modify componentIndex fun c => { c with gates := insert target c.gates }

/-- Weak emit-components and their inbound gates within `domain`.  The source asserts that the
domain lies in the graph; route planning calls it on the actors of one state. -/
def components (g : RouteGraph Actor) (domain : BTreeSet Actor) : List (Component Actor) :=
  let adj := g.adjacency domain
  let search := domain.toList.foldl (componentStep adj.neighbors) ⟨[], ∅⟩
  adj.gates.foldl (addGate search.componentByActor) search.components

/-! ## needs -/

theorem unexpanded_le (g : RouteGraph Actor) (expanded : BTreeSet Actor) (dst : Actor) :
    (g.actors.toFinset.filter fun a => a ∉ insert dst expanded).card
      ≤ (g.actors.toFinset.filter fun a => a ∉ expanded).card := by
  refine Finset.card_le_card fun a ha => ?_
  obtain ⟨h1, h2⟩ := Finset.mem_filter.mp ha
  exact Finset.mem_filter.mpr ⟨h1, fun h => h2 (BTreeSet.mem_insert.mpr (Or.inr h))⟩

/-- expanding an actor of the graph frees more than its emit targets add; an actor outside the
graph has no emit targets -/
theorem needsLoop_decreases (g : RouteGraph Actor) (expanded : BTreeSet Actor) (dst : Actor)
    (hdst : dst ∉ expanded) (stack : List Actor) :
    (g.actors.card + 1) * (g.actors.toFinset.filter fun a => a ∉ insert dst expanded).card
        + ((g.emitTargets dst).toList.reverse ++ stack).length
      < (g.actors.card + 1) * (g.actors.toFinset.filter fun a => a ∉ expanded).card
        + (stack.length + 1) := by
  rw [List.length_append, List.length_reverse]
  by_cases h : dst ∈ g.actors
  · have hlt : (g.actors.toFinset.filter fun a => a ∉ insert dst expanded).card
        < (g.actors.toFinset.filter fun a => a ∉ expanded).card := by
      apply Finset.card_lt_card
      rw [Finset.ssubset_iff_of_subset]
      · exact ⟨dst, Finset.mem_filter.mpr ⟨h, hdst⟩, fun hmem =>
          (Finset.mem_filter.mp hmem).2 (BTreeSet.mem_insert.mpr (Or.inl rfl))⟩
      · intro a ha
        obtain ⟨h1, h2⟩ := Finset.mem_filter.mp ha
        exact Finset.mem_filter.mpr ⟨h1, fun h => h2 (BTreeSet.mem_insert.mpr (Or.inr h))⟩
    have hcard : (g.emitTargets dst).toList.length ≤ g.actors.card := by
      rw [← BTreeSet.card_toFinset]
      exact Finset.card_le_card (s := (g.emitTargets dst).toFinset) fun a ha =>
        (emitTargets_actors ha).2
    have hmul := Nat.mul_le_mul_left (g.actors.card + 1) (Nat.succ_le_of_lt hlt)
    rw [Nat.mul_succ] at hmul
    omega
  · have hnil : (g.emitTargets dst).toList = [] := by
      rw [List.eq_nil_iff_forall_not_mem]
      exact fun a ha => h (emitTargets_actors ha).1
    have hle := Nat.mul_le_mul_left (g.actors.card + 1) (unexpanded_le g expanded dst)
    rw [hnil, List.length_nil]
    omega

/-- the traversal of one source actor; the pending stack has its top first -/
def needsLoop (g : RouteGraph Actor) (reachable : BTreeMap Actor (BTreeSet Actor)) (src : Actor)
    (srcReachable expanded : BTreeSet Actor) (stack : List Actor) : BTreeSet Actor :=
  match stack with
  | [] => srcReachable
  | dst :: stack =>
    if dst ∈ expanded then needsLoop g reachable src (insert dst srcReachable) expanded stack
    else if dst < src then
      -- a resolved actor contributes its complete closure at once
      needsLoop g reachable src ((insert dst srcReachable).extend (reachable.getD dst).toList)
        (insert dst expanded) stack
    else
      -- an unresolved actor contributes its consumes, its emits continue the traversal
      needsLoop g reachable src ((insert dst srcReachable).extend (g.directConsumes dst).toList)
        (insert dst expanded) ((g.emitTargets dst).toList.reverse ++ stack)
termination_by
  (g.actors.card + 1) * (g.actors.toFinset.filter fun a => a ∉ expanded).card + stack.length
decreasing_by
  · simp
  · refine Nat.add_lt_add_of_le_of_lt (Nat.mul_le_mul_left _ ?_) (Nat.lt_succ_self _)
    exact unexpanded_le g expanded dst
  · exact needsLoop_decreases g expanded dst ‹_› stack

/-- the templates needed by every actor through transitive emits and direct consumes -/
def needs (g : RouteGraph Actor) : BTreeMap Actor (BTreeSet Actor) :=
  g.actors.toList.foldl
    (fun reachable src =>
      reachable.insert src
        (g.needsLoop reachable src (g.directConsumes src) ∅ (g.emitTargets src).toList.reverse))
    ∅

end RouteGraph
end Argent.Routing
