import Mathlib.Data.List.Sort
import Mathlib.Data.Prod.Lex

/-!
# Sorting by a key

A stable sort by a key, of a list that is in order already.

* `place`                   the key and then the element;
* `pairwise_sortByKey`         **the list is in order of the places**;
* `sortByKey_map`             a renaming that keeps the order of the places commutes with sorting.
-/

set_option linter.unusedSectionVars false

namespace Argent.Stable
variable {α β : Type*} [LinearOrder α] [LinearOrder β]

/-- `sort_by` with a comparison of keys -/
def sortByKey (key : α → β) (l : List α) : List α :=
  l.mergeSort fun a b => key a ≤ key b

/-- where an element stands: its key decides, and the element itself where keys are equal -/
def place (key : α → β) (a : α) : β ×ₗ α := toLex (key a, a)

theorem place_lt {key : α → β} {a b : α} :
    place key a < place key b ↔ key a < key b ∨ key a = key b ∧ a < b :=
  Prod.Lex.toLex_lt_toLex

theorem not_sublist_swap {l : List α} (h : l.Nodup) {a b : α} (hab : [a, b].Sublist l) :
    ¬ [b, a].Sublist l := by
  induction l with
  | nil => cases hab
  | cons x l ih =>
    obtain ⟨hx, hl⟩ := List.nodup_cons.mp h
    intro hba
    cases hab with
    | cons _ hab =>
      cases hba with
      | cons _ hba => exact ih hl hab hba
      | cons_cons _ hba => exact hx (hab.subset (List.mem_cons_of_mem _ (List.mem_singleton_self _)))
    | cons_cons _ hab =>
      cases hba with
      | cons _ hba => exact hx (hba.subset (List.mem_cons_of_mem _ (List.mem_singleton_self _)))
      | cons_cons _ hba => exact hx (List.singleton_sublist.mp hab)

/-- elements with equal keys keep their order, so the places decide -/
theorem pairwise_sortByKey (key : α → β) {l : List α} (h : l.Pairwise (· < ·)) :
    (sortByKey key l).Pairwise fun a b => place key a < place key b := by
  have htrans : ∀ a b c : α, decide (key a ≤ key b) = true → decide (key b ≤ key c) = true →
      decide (key a ≤ key c) = true := by
    intro a b c hab hbc
    exact decide_eq_true ((of_decide_eq_true hab).trans (of_decide_eq_true hbc))
  have htotal : ∀ a b : α, (decide (key a ≤ key b) || decide (key b ≤ key a)) = true := by
    intro a b
    rw [Bool.or_eq_true, decide_eq_true_eq, decide_eq_true_eq]
    exact le_total _ _
  have hsorted := List.pairwise_mergeSort htrans htotal l
  have hnodup : (sortByKey key l).Nodup :=
    (List.mergeSort_perm l _).nodup_iff.mpr (h.imp fun hlt => ne_of_lt hlt)
  have hmem : ∀ a, a ∈ sortByKey key l → a ∈ l := fun a => (List.mergeSort_perm l _).mem_iff.mp
  apply List.pairwise_iff_forall_sublist.mpr
  intro a b hab
  have hkey : key a ≤ key b := of_decide_eq_true (List.pairwise_iff_forall_sublist.mp hsorted hab)
  have hne : a ≠ b := List.pairwise_iff_forall_sublist.mp hnodup hab
  refine place_lt.mpr (hkey.lt_or_eq.imp_right fun heq => ⟨heq, ?_⟩)
  by_contra hnot
  -- a pair that was swapped would have come out in its old order
  have hlt : b < a := lt_of_le_of_ne (not_lt.mp hnot) hne.symm
  have hback : [b, a].Sublist l := by
    have ha := hmem a (hab.subset List.mem_cons_self)
    have hb := hmem b (hab.subset (List.mem_cons_of_mem _ (List.mem_singleton_self _)))
    refine List.sublist_of_subperm_of_pairwise ?_ (List.pairwise_pair.mpr hlt) h
    apply List.subperm_of_subset (List.nodup_cons.mpr ⟨?_, List.nodup_singleton a⟩)
    · intro c hc
      obtain rfl | hc := List.mem_cons.mp hc
      · exact hb
      · exact List.mem_singleton.mp hc ▸ ha
    · exact fun hmem => hne (List.mem_singleton.mp hmem).symm
  exact not_sublist_swap hnodup hab
    (List.pair_sublist_mergeSort htrans htotal (decide_eq_true heq.ge) hback)

theorem sortByKey_eq {key : α → β} {l l' : List α} (h : l.Pairwise (· < ·)) (hperm : l'.Perm l)
    (hsorted : l'.Pairwise fun a b => place key a < place key b) : sortByKey key l = l' :=
  List.Perm.eq_of_pairwise (fun _ _ _ _ hab hba => absurd hba (lt_asymm hab))
    (pairwise_sortByKey key h) hsorted ((List.mergeSort_perm l _).trans hperm.symm)

/-- a renaming that keeps the order of the places commutes with sorting -/
theorem sortByKey_map {α' : Type*} [LinearOrder α'] {key : α → β} {key' : α' → β} {l : List α}
    {l' : List α'} (h : l.Pairwise (· < ·)) (h' : l'.Pairwise (· < ·)) {f : α → α'}
    (hperm : l'.Perm (l.map f))
    (hplace : ∀ a ∈ l, ∀ b ∈ l, place key a < place key b → place key' (f a) < place key' (f b)) :
    sortByKey key' l' = (sortByKey key l).map f := by
  have hsorted : ((sortByKey key l).map f).Pairwise fun a b => place key' a < place key' b := by
    rw [List.pairwise_map]
    apply (pairwise_sortByKey key h).imp_of_mem
    intro a b ha hb hlt
    exact hplace a ((List.mergeSort_perm l _).mem_iff.mp ha) b
      ((List.mergeSort_perm l _).mem_iff.mp hb) hlt
  exact sortByKey_eq h' (((List.mergeSort_perm l _).map f).trans hperm.symm) hsorted

end Argent.Stable
