import Argent.Base.Fallible
import Argent.Routing.ComponentsSound
import Mathlib.Data.String.Basic

/-!
# The order of components

`components` walks its domain in order, so a component is found at the least of its members and
after the components of all smaller actors.

* `assertedComponents`      `components` with the assertion of the source;
* `contains_adjacency`, `lookups_gates`      no lookup of the loops misses;
* `SearchOrder`             what holds between two components, after the actors of `done`;
* `components_partition`    **the result is the partition of the domain into its connected parts, in
                            domain order, and the gates are the members emitted from outside**.
-/

set_option linter.unusedSectionVars false
set_option linter.unusedVariables false

namespace Argent.Routing
open Argent.Fallible
variable {Actor : Type*} [LinearOrder Actor]

namespace RouteGraph

/-- `components` as the source has it: the domain must lie in the graph -/
def assertedComponents (g : RouteGraph Actor) (domain : BTreeSet Actor) :
    Except (Fault Empty) (List (Component Actor)) :=
  if domain ⊆ g.actors then .ok (g.components domain)
  else .error (.panic "component domain contains actors absent from the route graph")

/-- the search over the whole domain -/
def searched (g : RouteGraph Actor) (domain : BTreeSet Actor) : ComponentSearch Actor :=
  domain.toList.foldl (componentStep (g.adjacency domain).neighbors) ⟨[], ∅⟩

variable {g : RouteGraph Actor} {domain : BTreeSet Actor}

theorem components_eq (g : RouteGraph Actor) (domain : BTreeSet Actor) :
    g.components domain = (g.adjacency domain).gates.foldl
      (addGate (g.searched domain).componentByActor) (g.searched domain).components := rfl

theorem SearchInv.empty : SearchInv g domain [] (⟨[], ∅⟩ : ComponentSearch Actor) :=
  ⟨fun a k => by simp, fun _ h => absurd h List.not_mem_nil, fun _ h => absurd h List.not_mem_nil⟩

theorem searched_inv (g : RouteGraph Actor) (domain : BTreeSet Actor) :
    SearchInv g domain domain.toList (g.searched domain) :=
  foldl_componentStep domain.toList [] (fun _ ha => ha) _ SearchInv.empty

/-! ## no lookup misses -/

theorem contains_foldl_insert {l : List Actor} {m : BTreeMap Actor (BTreeSet Actor)} {a : Actor}
    (h : a ∈ l ∨ m.contains a = true) :
    (l.foldl (fun m actor => m.insert actor ∅) m).contains a = true := by
  induction l generalizing m with
  | nil => exact h.resolve_left List.not_mem_nil
  | cons x l ih =>
    rw [List.foldl_cons]
    apply ih
    unfold BTreeMap.contains
    rw [BTreeMap.get_insert]
    obtain h | h := h
    · obtain rfl | h := List.mem_cons.mp h
      · exact Or.inr (by rw [if_pos rfl]; rfl)
      · exact Or.inl h
    · refine Or.inr ?_
      split_ifs
      · rfl
      · exact h

theorem contains_modify {m : BTreeMap Actor (BTreeSet Actor)} {a : Actor} (x : Actor)
    (f : BTreeSet Actor → BTreeSet Actor) (h : m.contains a = true) :
    (m.modify x f).contains a = true := by
  unfold BTreeMap.contains
  rw [BTreeMap.get_modify]
  split_ifs
  · rfl
  · exact h

theorem contains_adjacencyEdge {adj : Adjacency Actor} {a : Actor} (source target : Actor)
    (h : adj.neighbors.contains a = true) :
    (adjacencyEdge domain source adj target).neighbors.contains a = true := by
  unfold adjacencyEdge
  split_ifs
  · exact h
  · exact contains_modify target _ (contains_modify source _ h)
  · exact h

theorem contains_foldl_adjacencyEdge {a : Actor} (edges : List (Actor × Actor))
    {adj : Adjacency Actor} (h : adj.neighbors.contains a = true) :
    (edges.foldl (fun adj edge => adjacencyEdge domain edge.1 adj edge.2) adj).neighbors.contains a
      = true := by
  induction edges generalizing adj with
  | nil => exact h
  | cons edge edges ih =>
    rw [List.foldl_cons]
    exact ih (contains_adjacencyEdge edge.1 edge.2 h)

/-- every actor of the domain has neighbor storage -/
theorem contains_adjacency {a : Actor} (ha : a ∈ domain) :
    (g.adjacency domain).neighbors.contains a = true := by
  rw [adjacency_eq]
  apply contains_foldl_adjacencyEdge
  exact contains_foldl_insert (Or.inl ha)

/-- every recorded gate lies in one of the components found -/
theorem lookups_gates {target : Actor} (h : target ∈ (g.adjacency domain).gates) :
    ∃ k, (g.searched domain).componentByActor.get target = some k ∧
      k < (g.searched domain).components.length := by
  have hinv := searched_inv g domain
  have hcovered := hinv.covered target (mem_gates target |>.mp h).1
  obtain ⟨k, hk⟩ := Option.isSome_iff_exists.mp hcovered
  obtain ⟨c, hc, _⟩ := (hinv.index target k).mp hk
  exact ⟨k, hk, (List.getElem?_eq_some_iff.mp hc).1⟩

/-! ## the order of the search -/

/-- `s` has a member before all of `t` -/
def Before (s t : BTreeSet Actor) : Prop := ∃ a ∈ s, ∀ b ∈ t, a < b

/-- What holds between two components, after the actors of `done`: the components stand in the
order of their least members, and each has a member among `done`. -/
structure SearchOrder (done : List Actor) (search : ComponentSearch Actor) : Prop where
  pairwise : (search.components.map (·.members)).Pairwise Before
  seeded : ∀ c ∈ search.components, ∃ a ∈ done, a ∈ c.members

theorem SearchInv.notMem_of_append {done : List Actor} {actor : Actor}
    {search search' : ComponentSearch Actor} (h : SearchInv g domain done search)
    (h' : SearchInv g domain (done ++ [actor]) search')
    {c : Component Actor} (hcomps : search'.components = search.components ++ [c]) {a : Actor}
    (ha : a ∈ c.members) : a ∉ done := by
  intro hdone
  obtain ⟨k, hk⟩ := Option.isSome_iff_exists.mp (h.covered a hdone)
  obtain ⟨d, hd, had⟩ := (h.index a k).mp hk
  have hlt := (List.getElem?_eq_some_iff.mp hd).1
  have hold : search'.componentByActor.get a = some k := by
    refine (h'.index a k).mpr ⟨d, ?_, had⟩
    rw [hcomps, List.getElem?_append_left hlt]
    exact hd
  have hnew : search'.componentByActor.get a = some search.components.length := by
    refine (h'.index a _).mpr ⟨c, ?_, ha⟩
    rw [hcomps, List.getElem?_concat_length]
  have heq : k = search.components.length := Option.some.inj (hold.symm.trans hnew)
  omega

/-- one actor of the domain: it lies in a component found before, or is the least of a new one -/
theorem SearchOrder.step {done rest : List Actor} {actor : Actor}
    (hdomain : domain.toList = done ++ actor :: rest) {search : ComponentSearch Actor}
    (hinv : SearchInv g domain done search) (h : SearchOrder done search) :
    SearchOrder (done ++ [actor])
      (componentStep (g.adjacency domain).neighbors search actor) := by
  have hactor : actor ∈ domain := by
    show actor ∈ domain.toList
    rw [hdomain]
    exact List.mem_append_right _ List.mem_cons_self
  have hinv' := hinv.step hactor
  have hsorted := domain.sorted
  rw [hdomain] at hsorted
  obtain ⟨_, hrest, hbefore⟩ := List.pairwise_append.mp hsorted
  have hseeded : ∀ c ∈ search.components, ∃ a ∈ done ++ [actor], a ∈ c.members := by
    intro c hc
    obtain ⟨a, ha, hmem⟩ := h.seeded c hc
    exact ⟨a, List.mem_append_left _ ha, hmem⟩
  unfold componentStep at hinv' ⊢
  by_cases hc : search.componentByActor.contains actor = true
  · rw [if_pos hc]
    exact ⟨h.pairwise, hseeded⟩
  · rw [if_neg hc] at hinv' ⊢
    dsimp only at hinv' ⊢
    generalize traverse (g.adjacency domain).neighbors search.components.length
      ⟨search.componentByActor.insert actor search.components.length, ∅, [actor]⟩ = t at hinv' ⊢
    have hfresh : ∀ b ∈ t.members, b ∉ done := fun b hb => hinv.notMem_of_append hinv' rfl hb
    -- the members of the new component come after all actors of `done`
    have hlater : ∀ a ∈ done, ∀ b ∈ t.members, a < b := by
      intro a ha b hb
      have hclass := (hinv'.classes ⟨t.members, ∅⟩ (by simp)).2
      obtain ⟨s, hs, hmembers⟩ := hclass
      have hbdomain : b ∈ domain.toList := ((hmembers b).mp hb).mem hs
      rw [hdomain] at hbdomain
      have hb' := (List.mem_append.mp hbdomain).resolve_left (hfresh b hb)
      exact hbefore a ha b hb'
    refine ⟨?_, fun c hcmem => ?_⟩
    · rw [List.map_append, List.pairwise_append]
      refine ⟨h.pairwise, List.pairwise_singleton _ _, fun s hs t' ht' => ?_⟩
      obtain rfl := List.mem_singleton.mp ht'
      obtain ⟨c, hcmem, rfl⟩ := List.mem_map.mp hs
      obtain ⟨a, ha, hmem⟩ := h.seeded c hcmem
      exact ⟨a, hmem, hlater a ha⟩
    · obtain hcmem | hcmem := List.mem_append.mp hcmem
      · exact hseeded c hcmem
      · obtain rfl := List.mem_singleton.mp hcmem
        refine ⟨actor, List.mem_append_right _ List.mem_cons_self, ?_⟩
        obtain ⟨k, hk⟩ := Option.isSome_iff_exists.mp (hinv'.covered actor (by simp))
        obtain ⟨d, hd, hmem⟩ := (hinv'.index actor k).mp hk
        obtain hdmem | hdmem := List.mem_append.mp (List.mem_of_getElem? hd)
        · obtain ⟨j, hj⟩ := List.mem_iff_getElem?.mp hdmem
          have hget := (hinv.index actor j).mpr ⟨d, hj, hmem⟩
          exact absurd (show search.componentByActor.contains actor = true by
            unfold BTreeMap.contains; rw [hget]; rfl) hc
        · obtain rfl := List.mem_singleton.mp hdmem
          exact hmem

theorem foldl_searchOrder {done rest : List Actor} (hdomain : domain.toList = done ++ rest)
    {search : ComponentSearch Actor} (hinv : SearchInv g domain done search)
    (h : SearchOrder done search) :
    SearchOrder domain.toList
      (rest.foldl (componentStep (g.adjacency domain).neighbors) search) := by
  induction rest generalizing done search with
  | nil =>
    rw [hdomain, List.append_nil]
    exact h
  | cons actor rest ih =>
    have hactor : actor ∈ domain := by
      show actor ∈ domain.toList
      rw [hdomain]
      exact List.mem_append_right _ List.mem_cons_self
    have hsplit : domain.toList = (done ++ [actor]) ++ rest := by rw [hdomain]; simp
    exact ih hsplit (hinv.step hactor) (h.step hdomain hinv)

theorem searched_order (g : RouteGraph Actor) (domain : BTreeSet Actor) :
    SearchOrder domain.toList (g.searched domain) :=
  have hstart : SearchOrder ([] : List Actor) ⟨[], ∅⟩ :=
    ⟨List.Pairwise.nil, fun _ h => absurd h List.not_mem_nil⟩
  foldl_searchOrder (List.nil_append _).symm SearchInv.empty hstart

/-! ## the components in order -/

theorem map_members_addGate (m : BTreeMap Actor Nat) (comps : List (Component Actor))
    (target : Actor) : (addGate m comps target).map (·.members) = comps.map (·.members) := by
  unfold addGate
  split
  · rfl
  · apply List.ext_getElem?
    intro i
    rw [List.getElem?_map, List.getElem?_map, List.getElem?_modify]
    cases comps[i]? with
    | none => rfl
    | some c =>
      show some (Component.members (if _ then _ else c)) = some c.members
      split_ifs <;> rfl

theorem map_members_foldl_addGate (m : BTreeMap Actor Nat) (targets : List Actor)
    (comps : List (Component Actor)) :
    (targets.foldl (addGate m) comps).map (·.members) = comps.map (·.members) := by
  induction targets generalizing comps with
  | nil => rfl
  | cons target targets ih =>
    rw [List.foldl_cons, ih, map_members_addGate]

theorem components_ordered (g : RouteGraph Actor) (domain : BTreeSet Actor) :
    ((g.components domain).map (·.members)).Pairwise Before := by
  rw [components_eq, map_members_foldl_addGate]
  exact (searched_order g domain).pairwise

/-- the weakly connected parts of a domain, in domain order -/
structure WeakComponents (g : RouteGraph Actor) (domain : BTreeSet Actor)
    (comps : List (Component Actor)) : Prop where
  covers : ∀ a ∈ domain, ∃ c ∈ comps, a ∈ c.members
  disjoint : comps.Pairwise fun c c' => ∀ a ∈ c.members, a ∉ c'.members
  connected : ∀ c ∈ comps, ∃ s ∈ domain, ∀ a, a ∈ c.members ↔ g.Connected domain s a
  ordered : (comps.map (·.members)).Pairwise Before
  members_ordered : ∀ c ∈ comps, c.members.toList.Sublist domain.toList
  gates : ∀ c ∈ comps, ∀ b, b ∈ c.gates ↔ b ∈ c.members ∧ ∃ s, g.Emits s b ∧ s ∉ c.members

theorem emits_outside {c : Component Actor} {seed : Actor}
    (hseed : seed ∈ domain) (hmembers : ∀ a, a ∈ c.members ↔ g.Connected domain seed a) {b : Actor}
    (hb : b ∈ c.members) {s : Actor} (hemit : g.Emits s b) : s ∉ domain ↔ s ∉ c.members := by
  have hconn := (hmembers b).mp hb
  constructor
  · intro hout hmem
    exact hout (((hmembers s).mp hmem).mem hseed)
  · intro hout hs
    apply hout
    by_cases heq : s = b
    · rw [heq]
      exact hb
    · refine (hmembers s).mpr (hconn.tail ?_)
      exact ⟨hconn.mem hseed, hs, fun e => heq e.symm, Or.inr hemit⟩

theorem components_disjoint (g : RouteGraph Actor) (domain : BTreeSet Actor) :
    (g.components domain).Pairwise fun c c' => ∀ a ∈ c.members, a ∉ c'.members := by
  rw [List.pairwise_iff_getElem]
  intro i j hi hj hlt a ha ha'
  have heq := (components_spec g domain).unique (List.getElem?_eq_getElem hi)
    (List.getElem?_eq_getElem hj) a ha ha'
  omega

/-- the components of a domain of the graph are its weakly connected parts, in domain order; the
gates of a component are its members with an incoming edge from outside the component -/
theorem components_partition (g : RouteGraph Actor) (domain : BTreeSet Actor)
    (h : domain ⊆ g.actors) :
    ∃ comps, g.assertedComponents domain = .ok comps ∧ g.WeakComponents domain comps := by
  have hpart := components_spec g domain
  refine ⟨g.components domain, if_pos h, ?_⟩
  refine ⟨hpart.covers, components_disjoint g domain, hpart.connected, components_ordered g domain,
    fun c hc => ?_, fun c hc b => ?_⟩
  · apply List.sublist_of_subperm_of_pairwise ?_ c.members.sorted domain.sorted
    exact c.members.nodup.subperm fun a ha => hpart.subset hc ha
  · obtain ⟨seed, hseed, hmembers⟩ := hpart.connected c hc
    rw [hpart.gates c hc]
    refine and_congr_right fun hb => exists_congr fun s => and_congr_right fun hemit => ?_
    exact emits_outside hseed hmembers hb hemit

/-- a state of three actors, of which another state emits the second -/
def sampleGraph : RouteGraph String :=
  ((empty.addEmit "Opener" "Board").addEmit "Board" "Archive").addActor "Clock"

theorem components_partition_sample :
    ∃ comps, sampleGraph.assertedComponents {"Archive", "Board", "Clock"} = .ok comps ∧
      sampleGraph.WeakComponents {"Archive", "Board", "Clock"} comps :=
  components_partition sampleGraph {"Archive", "Board", "Clock"} (by decide +kernel)

end RouteGraph
end Argent.Routing
