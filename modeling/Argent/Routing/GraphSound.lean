import Argent.Routing.Graph
import Mathlib.Logic.Relation

/-!
# What `needs` computes

* `Needed`              direct consumes, everything reachable through emits, and its consumes;
* `needsLoop_spec`      the traversal of one source, given the lower ones are resolved;
* `needs_exact`         **`needs` is `Needed`**, for cyclic graphs included;
* `Needed.emits`        an emitter needs its target and everything the target needs.
-/

set_option linter.unusedSectionVars false
set_option linter.unusedVariables false

namespace Argent.Routing
variable {Actor : Type*} [LinearOrder Actor]

namespace RouteGraph
variable (g : RouteGraph Actor)

/-- one or more emit edges -/
def Routes : Actor → Actor → Prop := Relation.TransGen g.Emits

/-- the templates an actor needs -/
def Needed (a x : Actor) : Prop :=
  x ∈ g.directConsumes a ∨ ∃ y, g.Routes a y ∧ (x = y ∨ x ∈ g.directConsumes y)

variable {g}

theorem Needed.consume {a x : Actor} (h : x ∈ g.directConsumes a) : g.Needed a x := Or.inl h

theorem Needed.target {a t : Actor} (h : g.Emits a t) : g.Needed a t :=
  Or.inr ⟨t, Relation.TransGen.single h, Or.inl rfl⟩

theorem Needed.routes {a t x : Actor} (h : g.Routes a t) (hx : g.Needed t x) : g.Needed a x := by
  rcases hx with hx | ⟨y, hy, hx⟩
  · exact Or.inr ⟨t, h, Or.inr hx⟩
  · exact Or.inr ⟨y, h.trans hy, hx⟩

theorem Needed.emits {a t x : Actor} (h : g.Emits a t) (hx : g.Needed t x) : g.Needed a x :=
  Needed.routes (Relation.TransGen.single h) hx

theorem Needed.actors {a x : Actor} (h : g.Needed a x) : x ∈ g.actors := by
  rcases h with h | ⟨y, hy, rfl | h⟩
  · exact (directConsumes_actors h).2
  · obtain ⟨z, _, hz⟩ := Relation.TransGen.tail'_iff.mp hy
    exact (emitTargets_actors hz).2
  · exact (directConsumes_actors h).2

/-! ## the traversal of one source -/

/-- What holds whenever the traversal of `src` pops: everything collected is needed, and whatever
an expanded actor contributes is collected or still pending. -/
structure NeedsInv (g : RouteGraph Actor) (src : Actor) (srcReachable expanded : BTreeSet Actor)
    (stack : List Actor) : Prop where
  stack_routes : ∀ d ∈ stack, g.Routes src d
  sound : ∀ x ∈ srcReachable, g.Needed src x
  consumes : ∀ x ∈ g.directConsumes src, x ∈ srcReachable
  expanded_mem : ∀ d ∈ expanded, d ∈ srcReachable
  lower : ∀ d ∈ expanded, d < src → ∀ x, g.Needed d x → x ∈ srcReachable
  higher_consumes : ∀ d ∈ expanded, ¬ d < src → ∀ x ∈ g.directConsumes d, x ∈ srcReachable
  higher_emits : ∀ d ∈ expanded, ¬ d < src → ∀ y, g.Emits d y → y ∈ expanded ∨ y ∈ stack
  emits : ∀ y, g.Emits src y → y ∈ expanded ∨ y ∈ stack

theorem needsInv_init (src : Actor) :
    g.NeedsInv src (g.directConsumes src) ∅ (g.emitTargets src).toList.reverse where
  stack_routes := fun d hd => Relation.TransGen.single (List.mem_reverse.mp hd)
  sound := fun x hx => Needed.consume hx
  consumes := fun x hx => hx
  expanded_mem := fun d hd => absurd hd (BTreeSet.not_mem_empty d)
  lower := fun d hd => absurd hd (BTreeSet.not_mem_empty d)
  higher_consumes := fun d hd => absurd hd (BTreeSet.not_mem_empty d)
  higher_emits := fun d hd => absurd hd (BTreeSet.not_mem_empty d)
  emits := fun y hy => Or.inr (List.mem_reverse.mpr hy)

/-- a routed actor is expanded, or lies behind an expanded lower actor -/
theorem NeedsInv.routed {src : Actor} {acc expanded : BTreeSet Actor}
    (h : g.NeedsInv src acc expanded []) {y : Actor} (hy : g.Routes src y) :
    y ∈ expanded ∨ ∃ d ∈ expanded, d < src ∧ g.Routes d y := by
  induction hy with
  | single hy => exact Or.inl ((h.emits _ hy).resolve_right List.not_mem_nil)
  | @tail y z _ hz ih =>
    rcases ih with hy | ⟨d, hd, hlt, hdy⟩
    · by_cases hlt : y < src
      · exact Or.inr ⟨y, hy, hlt, Relation.TransGen.single hz⟩
      · exact Or.inl ((h.higher_emits y hy hlt z hz).resolve_right List.not_mem_nil)
    · exact Or.inr ⟨d, hd, hlt, hdy.tail hz⟩

/-- with an empty stack everything needed is collected -/
theorem NeedsInv.complete {src : Actor} {acc expanded : BTreeSet Actor}
    (h : g.NeedsInv src acc expanded []) (x : Actor) : x ∈ acc ↔ g.Needed src x := by
  refine ⟨h.sound x, ?_⟩
  rintro (hx | ⟨y, hy, hx⟩)
  · exact h.consumes x hx
  · rcases h.routed hy with hy' | ⟨d, hd, hlt, hdy⟩
    · rcases hx with rfl | hx
      · exact h.expanded_mem x hy'
      · by_cases hlt : y < src
        · exact h.lower y hy' hlt x (Needed.consume hx)
        · exact h.higher_consumes y hy' hlt x hx
    · exact h.lower d hd hlt x (Or.inr ⟨y, hdy, hx⟩)

section
variable {reachable : BTreeMap Actor (BTreeSet Actor)} {src : Actor}

theorem NeedsInv.skip {acc expanded : BTreeSet Actor} {dst : Actor} {stack : List Actor}
    (h : g.NeedsInv src acc expanded (dst :: stack)) (hdst : dst ∈ expanded) :
    g.NeedsInv src (insert dst acc) expanded stack := by
  have hacc : ∀ x, x ∈ insert dst acc ↔ x ∈ acc := fun x => by
    rw [BTreeSet.insert_of_mem (h.expanded_mem dst hdst)]
  have hpend : ∀ y, y ∈ expanded ∨ y ∈ dst :: stack → y ∈ expanded ∨ y ∈ stack := by
    rintro y (hy | hy)
    · exact Or.inl hy
    · rcases List.mem_cons.mp hy with rfl | hy
      · exact Or.inl hdst
      · exact Or.inr hy
  exact
    { stack_routes := fun d hd => h.stack_routes d (List.mem_cons_of_mem _ hd)
      sound := fun x hx => h.sound x ((hacc x).mp hx)
      consumes := fun x hx => (hacc x).mpr (h.consumes x hx)
      expanded_mem := fun d hd => (hacc d).mpr (h.expanded_mem d hd)
      lower := fun d hd hlt x hx => (hacc x).mpr (h.lower d hd hlt x hx)
      higher_consumes := fun d hd hlt x hx => (hacc x).mpr (h.higher_consumes d hd hlt x hx)
      higher_emits := fun d hd hlt y hy => hpend y (h.higher_emits d hd hlt y hy)
      emits := fun y hy => hpend y (h.emits y hy) }

/-- Popping a new actor `dst`: it is collected together with `extra` (all it needs when it is
resolved, else its consumes) and `more` joins the stack (nothing, or its emit targets). -/
theorem NeedsInv.expand {acc expanded extra : BTreeSet Actor} {dst : Actor} {stack more : List Actor}
    (h : g.NeedsInv src acc expanded (dst :: stack))
    (hextra : ∀ x ∈ extra, g.Needed dst x)
    (hmore : ∀ y ∈ more, g.Emits dst y)
    (hlow : dst < src → ∀ x, g.Needed dst x → x ∈ extra)
    (hhigh : ¬ dst < src → (∀ x ∈ g.directConsumes dst, x ∈ extra) ∧ ∀ y, g.Emits dst y → y ∈ more) :
    g.NeedsInv src ((insert dst acc).extend extra.toList) (insert dst expanded) (more ++ stack) := by
  have hroute : g.Routes src dst := h.stack_routes dst (by simp)
  have hold : ∀ x ∈ acc, x ∈ (insert dst acc).extend extra.toList := fun x hx =>
    BTreeSet.mem_extend.mpr (Or.inl (BTreeSet.mem_insert.mpr (Or.inr hx)))
  have hnew : ∀ x ∈ extra, x ∈ (insert dst acc).extend extra.toList := fun x hx =>
    BTreeSet.mem_extend.mpr (Or.inr hx)
  have hpend : ∀ y, y ∈ expanded ∨ y ∈ dst :: stack → y ∈ insert dst expanded ∨ y ∈ more ++ stack := by
    rintro y (hy | hy)
    · exact Or.inl (BTreeSet.mem_insert.mpr (Or.inr hy))
    · rcases List.mem_cons.mp hy with rfl | hy
      · exact Or.inl (BTreeSet.mem_insert.mpr (Or.inl rfl))
      · exact Or.inr (List.mem_append_right _ hy)
  refine ⟨?_, ?_, ?_, ?_, ?_, ?_, ?_, ?_⟩
  · intro d hd
    rcases List.mem_append.mp hd with hd | hd
    · exact hroute.tail (hmore d hd)
    · exact h.stack_routes d (List.mem_cons_of_mem _ hd)
  · intro x hx
    rcases BTreeSet.mem_extend.mp hx with hx | hx
    · rcases BTreeSet.mem_insert.mp hx with rfl | hx
      · exact Or.inr ⟨x, hroute, Or.inl rfl⟩
      · exact h.sound x hx
    · exact Needed.routes hroute (hextra x hx)
  · exact fun x hx => hold x (h.consumes x hx)
  · intro d hd
    rcases BTreeSet.mem_insert.mp hd with rfl | hd
    · exact BTreeSet.mem_extend.mpr (Or.inl (BTreeSet.mem_insert.mpr (Or.inl rfl)))
    · exact hold d (h.expanded_mem d hd)
  · intro d hd hlt x hx
    rcases BTreeSet.mem_insert.mp hd with rfl | hd
    · exact hnew x (hlow hlt x hx)
    · exact hold x (h.lower d hd hlt x hx)
  · intro d hd hlt x hx
    rcases BTreeSet.mem_insert.mp hd with rfl | hd
    · exact hnew x ((hhigh hlt).1 x hx)
    · exact hold x (h.higher_consumes d hd hlt x hx)
  · intro d hd hlt y hy
    rcases BTreeSet.mem_insert.mp hd with rfl | hd
    · exact Or.inr (List.mem_append_left _ ((hhigh hlt).2 y hy))
    · exact hpend y (h.higher_emits d hd hlt y hy)
  · exact fun y hy => hpend y (h.emits y hy)

/-- **The traversal of one source** collects what it needs, if the lower actors are resolved. -/
theorem needsLoop_spec
    (hreach : ∀ d, d < src → d ∈ g.actors → ∀ x, x ∈ reachable.getD d ↔ g.Needed d x)
    (acc expanded : BTreeSet Actor) (stack : List Actor) (h : g.NeedsInv src acc expanded stack)
    (x : Actor) : x ∈ g.needsLoop reachable src acc expanded stack ↔ g.Needed src x := by
  induction acc, expanded, stack using needsLoop.induct g reachable src with
  | case1 acc expanded =>
    rw [needsLoop]
    exact h.complete x
  | case2 acc expanded dst stack hdst ih =>
    rw [needsLoop, if_pos hdst]
    exact ih (h.skip hdst)
  | case3 acc expanded dst stack hdst hlt ih =>
    rw [needsLoop, if_neg hdst, if_pos hlt]
    have hactor : dst ∈ g.actors := by
      obtain ⟨z, _, hz⟩ := Relation.TransGen.tail'_iff.mp (h.stack_routes dst (by simp))
      exact (emitTargets_actors hz).2
    have hres := hreach dst hlt hactor
    refine ih (h.expand (fun x hx => (hres x).mp hx) ?_ (fun _ x hx => (hres x).mpr hx)
      (fun hn => absurd hlt hn) : g.NeedsInv src _ _ ([] ++ stack))
    exact fun y hy => absurd hy List.not_mem_nil
  | case4 acc expanded dst stack hdst hlt ih =>
    rw [needsLoop, if_neg hdst, if_neg hlt]
    exact ih (h.expand (fun x hx => Needed.consume hx) (fun y hy => List.mem_reverse.mp hy)
      (fun hl => absurd hl hlt) (fun _ => ⟨fun x hx => hx, fun y hy => List.mem_reverse.mpr hy⟩))

end

/-! ## all sources in order -/

/-- the sources resolved so far form an initial segment of the actors -/
theorem foldl_needs (l : List Actor) (reachable : BTreeMap Actor (BTreeSet Actor))
    (hl : l.Pairwise (· < ·)) (hmem : ∀ a ∈ l, a ∈ g.actors)
    (hlow : ∀ a ∈ l, ∀ d ∈ g.actors, d < a → d ∉ l → (reachable.get d).isSome = true)
    (hres : ∀ d s, reachable.get d = some s → ∀ x, x ∈ s ↔ g.Needed d x) :
    ∀ d, (d ∈ l ∨ (reachable.get d).isSome = true →
        ∃ s, (l.foldl (fun reachable src => reachable.insert src
          (g.needsLoop reachable src (g.directConsumes src) ∅ (g.emitTargets src).toList.reverse))
          reachable).get d = some s ∧ ∀ x, x ∈ s ↔ g.Needed d x) ∧
      (¬ (d ∈ l ∨ (reachable.get d).isSome = true) →
        (l.foldl (fun reachable src => reachable.insert src
          (g.needsLoop reachable src (g.directConsumes src) ∅ (g.emitTargets src).toList.reverse))
          reachable).get d = none) := by
  induction l generalizing reachable with
  | nil =>
    intro d
    constructor
    · rintro (h | h)
      · exact absurd h List.not_mem_nil
      · obtain ⟨s, hs⟩ := Option.isSome_iff_exists.mp h
        exact ⟨s, hs, hres d s hs⟩
    · intro h
      exact Option.not_isSome_iff_eq_none.mp fun hs => h (Or.inr hs)
  | cons src l ih =>
    obtain ⟨hsrc, hl'⟩ := List.pairwise_cons.mp hl
    -- the actors below `src` are resolved when `src` is visited
    have hbelow : ∀ d, d < src → d ∈ g.actors → ∀ x, x ∈ reachable.getD d ↔ g.Needed d x := by
      intro d hd hda x
      have hdl : d ∉ src :: l := by
        intro hmem'
        rcases List.mem_cons.mp hmem' with rfl | hmem'
        · exact lt_irrefl d hd
        · exact lt_asymm hd (hsrc d hmem')
      obtain ⟨s, hs⟩ := Option.isSome_iff_exists.mp (hlow src (by simp) d hda hd hdl)
      unfold BTreeMap.getD
      rw [hs]
      exact hres d s hs x
    have hnew := needsLoop_spec hbelow _ _ _ (needsInv_init src)
    intro d
    have hih := ih (reachable.insert src (g.needsLoop reachable src (g.directConsumes src) ∅
      (g.emitTargets src).toList.reverse)) hl' (fun a ha => hmem a (List.mem_cons_of_mem _ ha)) ?_ ?_ d
    · have hiff : (d ∈ l ∨ ((reachable.insert src (g.needsLoop reachable src (g.directConsumes src) ∅
          (g.emitTargets src).toList.reverse)).get d).isSome = true) ↔
          (d ∈ src :: l ∨ (reachable.get d).isSome = true) := by
        rw [BTreeMap.get_insert, List.mem_cons]
        by_cases hd : d = src
        · simp [hd]
        · simp [hd]
      rw [hiff] at hih
      exact hih
    · intro a ha d hda hlt hdl
      rw [BTreeMap.get_insert]
      split_ifs with hd
      · rfl
      · refine hlow a (List.mem_cons_of_mem _ ha) d hda hlt fun hmem' => ?_
        rcases List.mem_cons.mp hmem' with h | h
        · exact hd h
        · exact hdl h
    · intro d s hs x
      rw [BTreeMap.get_insert] at hs
      split_ifs at hs with hd
      · obtain rfl := Option.some.inj hs
        rw [hd]
        exact hnew x
      · exact hres d s hs x

/-- **`needs` computes what every actor of the graph needs.** -/
theorem needs_get {a : Actor} (ha : a ∈ g.actors) :
    ∃ s, g.needs.get a = some s ∧ ∀ x, x ∈ s ↔ g.Needed a x := by
  have h := foldl_needs (g := g) g.actors.toList ∅ g.actors.sorted (fun a ha => ha)
    (fun a _ d hd _ hdl => absurd hd hdl)
    (fun d s hs => by rw [BTreeMap.get_empty] at hs; cases hs) a
  exact h.1 (Or.inl ha)

/-- **The actors of the graph, and no others, are given exactly what they need.** -/
theorem needs_exact (g : RouteGraph Actor) (a : Actor) :
    (a ∉ g.actors ∧ g.needs.get a = none) ∨
      ∃ s, a ∈ g.actors ∧ g.needs.get a = some s ∧ ∀ x, x ∈ s ↔ g.Needed a x := by
  have h := foldl_needs (g := g) g.actors.toList ∅ g.actors.sorted (fun a ha => ha)
    (fun a _ d hd _ hdl => absurd hd hdl)
    (fun d s hs => by rw [BTreeMap.get_empty] at hs; cases hs) a
  by_cases ha : a ∈ g.actors
  · obtain ⟨s, hs, hmem⟩ := h.1 (Or.inl ha)
    exact Or.inr ⟨s, ha, hs, hmem⟩
  · refine Or.inl ⟨ha, h.2 fun hin => ?_⟩
    obtain hin | hsome := hin
    · exact ha hin
    · rw [BTreeMap.get_empty] at hsome
      cases hsome

theorem mem_needs {a : Actor} (ha : a ∈ g.actors) (x : Actor) :
    x ∈ g.needs.getD a ↔ g.Needed a x := by
  obtain ⟨s, hs, hmem⟩ := needs_get ha
  unfold BTreeMap.getD
  rw [hs]
  exact hmem x

end RouteGraph
end Argent.Routing
