import Mathlib.Logic.Relation
import Mathlib.Logic.Function.Iterate
import Mathlib.Data.Set.Basic

/-!
# Steps repeated until nothing changes

A loop that replaces its state by the next one until both are equal.  It ends when every step
that changes the state makes it larger and its size is bounded.

* `Growing`            a step with a size that grows and a bound that does not;
* `saturate`           the loop;
* `step_saturate`      the loop ends in a state that the step leaves alone;
* `saturate_induct`    what the steps preserve holds at the end of the loop;
* `saturate_exact`     **a step that collects the facts of the neighbours ends with the facts of
                       everything that can be reached**.
-/

set_option linter.unusedSectionVars false

namespace Argent.Saturate
variable {σ : Type*}

/-- a step that only adds, within a bound -/
structure Growing (step : σ → σ) where
  size : σ → Nat
  bound : σ → Nat
  size_le : ∀ s, size s ≤ bound s
  grows : ∀ s, step s ≠ s → size s < size (step s)
  bound_le : ∀ s, bound (step s) ≤ bound s

theorem Growing.room_lt {step : σ → σ} (g : Growing step) {s : σ} (h : step s ≠ s) :
    g.bound (step s) - g.size (step s) < g.bound s - g.size s := by
  have hgrows := g.grows s h
  have hsize := g.size_le (step s)
  have hbound := g.bound_le s
  omega

section
variable [DecidableEq σ] {step : σ → σ}

/-- `loop { let next = step(s); if next == s { break } s = next }` -/
def saturate (g : Growing step) (s : σ) : σ :=
  if step s = s then s else saturate g (step s)
termination_by g.bound s - g.size s
decreasing_by
  rename_i h
  exact g.room_lt h

variable (g : Growing step)

theorem saturate_of_eq {s : σ} (h : step s = s) : saturate g s = s := by
  rw [saturate, if_pos h]

theorem saturate_of_ne {s : σ} (h : step s ≠ s) : saturate g s = saturate g (step s) := by
  rw [saturate, if_neg h]

/-- the loop is entered finitely often -/
theorem saturate_eq_iterate (s : σ) :
    ∃ rounds, saturate g s = step^[rounds] s ∧ step (step^[rounds] s) = step^[rounds] s := by
  induction s using saturate.induct g with
  | case1 s h => exact ⟨0, saturate_of_eq g h, h⟩
  | case2 s h ih =>
    obtain ⟨rounds, hs, hfixed⟩ := ih
    refine ⟨rounds + 1, ?_, ?_⟩
    · rw [saturate_of_ne g h, hs, Function.iterate_succ_apply]
    · rw [Function.iterate_succ_apply]
      exact hfixed

theorem step_saturate (s : σ) : step (saturate g s) = saturate g s := by
  obtain ⟨rounds, hs, hfixed⟩ := saturate_eq_iterate g s
  rw [hs]
  exact hfixed

theorem saturate_induct {P : σ → Prop} {s : σ} (h0 : P s) (hstep : ∀ s, P s → P (step s)) :
    P (saturate g s) := by
  induction s using saturate.induct g with
  | case1 s h => rwa [saturate_of_eq g h]
  | case2 s h ih =>
    rw [saturate_of_ne g h]
    exact ih (hstep s h0)

/-! ## facts that travel along edges -/

section
variable {ι α : Type*} (facts : σ → ι → Set α) (Edge : ι → ι → Prop) (Valid : σ → Prop)
  (hvalid : ∀ s, Valid s → Valid (step s))
  (hstep : ∀ s, Valid s → ∀ i x,
    x ∈ facts (step s) i ↔ x ∈ facts s i ∨ ∃ j, Edge i j ∧ x ∈ facts s j)
include hvalid hstep

/-- nothing is collected that was not somewhere at the beginning -/
theorem saturate_origin {s : σ} (hs : Valid s) :
    ∀ i x, x ∈ facts (saturate g s) i → ∃ j, Relation.ReflTransGen Edge i j ∧ x ∈ facts s j := by
  have hboth : Valid (saturate g s) ∧ ∀ i x, x ∈ facts (saturate g s) i →
      ∃ j, Relation.ReflTransGen Edge i j ∧ x ∈ facts s j := by
    apply saturate_induct g (P := fun t => Valid t ∧ ∀ i x, x ∈ facts t i →
      ∃ j, Relation.ReflTransGen Edge i j ∧ x ∈ facts s j)
    · exact ⟨hs, fun i x hx => ⟨i, .refl, hx⟩⟩
    · intro t ht
      obtain ⟨hvalid_t, ih⟩ := ht
      refine ⟨hvalid t hvalid_t, fun i x hx => ?_⟩
      obtain hx | ⟨j, hij, hx⟩ := (hstep t hvalid_t i x).mp hx
      · exact ih i x hx
      · obtain ⟨k, hjk, hk⟩ := ih j x hx
        exact ⟨k, hjk.head hij, hk⟩
  exact hboth.2

/-- nothing is lost on the way -/
theorem saturate_keeps {s : σ} (hs : Valid s) {i : ι} {x : α} (hx : x ∈ facts s i) :
    Valid (saturate g s) ∧ x ∈ facts (saturate g s) i :=
  saturate_induct g (P := fun t => Valid t ∧ x ∈ facts t i) ⟨hs, hx⟩
    fun t ht => ⟨hvalid t ht.1, (hstep t ht.1 i x).mpr (.inl ht.2)⟩

/-- **the facts at the end of the loop are those of everything that can be reached** -/
theorem saturate_exact {s : σ} (hs : Valid s) {i : ι} {x : α} :
    x ∈ facts (saturate g s) i ↔ ∃ j, Relation.ReflTransGen Edge i j ∧ x ∈ facts s j := by
  refine ⟨saturate_origin g facts Edge Valid hvalid hstep hs i x, fun h => ?_⟩
  obtain ⟨j, hij, hx⟩ := h
  obtain ⟨hend, hx⟩ := saturate_keeps g facts Edge Valid hvalid hstep hs hx
  induction hij using Relation.ReflTransGen.head_induction_on with
  | refl => exact hx
  | @head i k hik _ ih =>
    rw [← step_saturate g s]
    exact (hstep _ hend _ _).mpr (.inr ⟨k, hik, ih⟩)

end
end

end Argent.Saturate
