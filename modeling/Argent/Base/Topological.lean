import Mathlib.Data.List.Basic
import Mathlib.Logic.Relation

/-!
# Lists in which everything stands after what it leads to

* `Topological`          no element twice, and each after all it leads to;
* `Topological.snoc`     an element is added when all it leads to is there;
* `Topological.closed`   what is reached from an element of the list is in the list;
* `Topological.acyclic`      **no element of the list leads back to itself**.
-/

set_option linter.unusedSectionVars false

variable {α : Type*}

/-- no element twice, and each after all it leads to -/
structure Topological (Next : α → α → Prop) (order : List α) : Prop where
  nodup : order.Nodup
  after : ∀ before a rest, order = before ++ a :: rest → ∀ b, Next a b → b ∈ before

namespace Topological
variable {Next : α → α → Prop} {order : List α}

theorem nil : Topological Next [] where
  nodup := List.nodup_nil
  after := by
    intro before a rest h
    exact absurd h.symm (List.append_ne_nil_of_right_ne_nil _ (List.cons_ne_nil a rest))

theorem snoc (h : Topological Next order) {a : α} (ha : a ∉ order)
    (hnext : ∀ b, Next a b → b ∈ order) : Topological Next (order ++ [a]) where
  nodup := by
    have hsingle : [a].Nodup := List.nodup_cons.mpr ⟨List.not_mem_nil, List.nodup_nil⟩
    refine List.nodup_append.mpr ⟨h.nodup, hsingle, fun x hx y hy => ?_⟩
    rw [List.mem_singleton.mp hy]
    exact fun heq => ha (heq ▸ hx)
  after := by
    intro before x rest heq b hb
    obtain rfl | ⟨rest', last, rfl⟩ := List.eq_nil_or_concat rest
    · obtain ⟨hbefore, hlast⟩ := List.append_inj' heq rfl
      obtain rfl : a = x := List.head_eq_of_cons_eq hlast
      exact hbefore ▸ hnext b hb
    · rw [List.concat_eq_append, ← List.cons_append, ← List.append_assoc] at heq
      obtain ⟨hfront, _⟩ := List.append_inj' heq rfl
      exact h.after before x rest' hfront b hb

theorem mem_next (h : Topological Next order) {a b : α} (ha : a ∈ order) (hab : Next a b) :
    b ∈ order := by
  obtain ⟨before, rest, rfl⟩ := List.append_of_mem ha
  exact List.mem_append_left _ (h.after before a rest rfl b hab)

theorem closed (h : Topological Next order) {a b : α} (ha : a ∈ order)
    (hab : Relation.ReflTransGen Next a b) : b ∈ order := by
  induction hab with
  | refl => exact ha
  | tail _ hbc ih => exact h.mem_next ih hbc

theorem idxOf_lt [DecidableEq α] (h : Topological Next order) {a b : α} (ha : a ∈ order)
    (hab : Next a b) : order.idxOf b < order.idxOf a := by
  obtain ⟨before, rest, rfl, hnot⟩ := List.eq_append_cons_of_mem ha
  have hb := h.after before a rest rfl b hab
  rw [List.idxOf_append_of_mem hb, List.idxOf_append_of_notMem hnot, List.idxOf_cons_self,
    Nat.add_zero]
  exact List.idxOf_lt_length_of_mem hb

theorem acyclic [DecidableEq α] (h : Topological Next order) {a : α} (ha : a ∈ order) :
    ¬ Relation.TransGen Next a a := by
  have hlt : ∀ b, Relation.TransGen Next a b → b ∈ order ∧ order.idxOf b < order.idxOf a := by
    intro b hab
    induction hab with
    | single hb => exact ⟨h.mem_next ha hb, h.idxOf_lt ha hb⟩
    | tail _ hbc ih => exact ⟨h.mem_next ih.1 hbc, Nat.lt_trans (h.idxOf_lt ih.1 hbc) ih.2⟩
  exact fun hself => absurd (hlt a hself).2 (Nat.lt_irrefl _)

end Topological
