import Mathlib.Data.List.Basic
import Mathlib.Data.List.Nodup
import Mathlib.Tactic.Common

/-!
# The first element of each key

The loop that keeps an element when its key was not seen before.

* `firsts`               the elements that are kept;
* `exists_firsts`        every key of the list is the key of a kept element;
* `nodup_firsts`         **no two kept elements have one key**.
-/

set_option linter.unusedSectionVars false

variable {α κ : Type*} [DecidableEq κ] (key : α → κ)

/-- `if seen.insert(key(a)) { out.push(a) }` -/
def firstsFrom (seen : List κ) : List α → List α
  | [] => []
  | a :: l =>
    if key a ∈ seen then firstsFrom seen l
    else a :: firstsFrom (key a :: seen) l

def firsts (l : List α) : List α := firstsFrom key [] l

variable {key}

theorem mem_of_mem_firstsFrom {seen : List κ} {l : List α} {a : α}
    (h : a ∈ firstsFrom key seen l) : a ∈ l ∧ key a ∉ seen := by
  induction l generalizing seen with
  | nil => exact absurd h List.not_mem_nil
  | cons b l ih =>
    rw [firstsFrom] at h
    split_ifs at h with hseen
    · obtain ⟨hmem, hnot⟩ := ih h
      exact ⟨List.mem_cons_of_mem _ hmem, hnot⟩
    · obtain rfl | h := List.mem_cons.mp h
      · exact ⟨List.mem_cons_self, hseen⟩
      · obtain ⟨hmem, hnot⟩ := ih h
        exact ⟨List.mem_cons_of_mem _ hmem, fun hin => hnot (List.mem_cons_of_mem _ hin)⟩

theorem exists_firstsFrom {seen : List κ} {l : List α} {a : α} (ha : a ∈ l)
    (hseen : key a ∉ seen) : ∃ b ∈ firstsFrom key seen l, key b = key a := by
  induction l generalizing seen with
  | nil => exact absurd ha List.not_mem_nil
  | cons b l ih =>
    rw [firstsFrom]
    split_ifs with hb
    · obtain rfl | ha := List.mem_cons.mp ha
      · exact absurd hb hseen
      · exact ih ha hseen
    · by_cases hkey : key b = key a
      · exact ⟨b, List.mem_cons_self, hkey⟩
      · obtain rfl | ha := List.mem_cons.mp ha
        · exact absurd rfl hkey
        · have hnot : key a ∉ key b :: seen := by
            intro hin
            obtain heq | hin := List.mem_cons.mp hin
            · exact hkey heq.symm
            · exact hseen hin
          obtain ⟨c, hc, hca⟩ := ih ha hnot
          exact ⟨c, List.mem_cons_of_mem _ hc, hca⟩

theorem nodup_firstsFrom (seen : List κ) (l : List α) :
    ((firstsFrom key seen l).map key).Nodup := by
  induction l generalizing seen with
  | nil => exact List.nodup_nil
  | cons b l ih =>
    rw [firstsFrom]
    split_ifs with hb
    · exact ih seen
    · rw [List.map_cons]
      refine List.nodup_cons.mpr ⟨fun hin => ?_, ih _⟩
      obtain ⟨c, hc, hcb⟩ := List.mem_map.mp hin
      exact (mem_of_mem_firstsFrom hc).2 (hcb ▸ List.mem_cons_self)

theorem mem_of_mem_firsts {l : List α} {a : α} (h : a ∈ firsts key l) : a ∈ l :=
  (mem_of_mem_firstsFrom h).1

theorem exists_firsts {l : List α} {a : α} (ha : a ∈ l) : ∃ b ∈ firsts key l, key b = key a :=
  exists_firstsFrom ha List.not_mem_nil

/-- **no two kept elements have one key** -/
theorem nodup_firsts (l : List α) : ((firsts key l).map key).Nodup := nodup_firstsFrom [] l

theorem firsts_inj {l : List α} {a b : α} (ha : a ∈ firsts key l) (hb : b ∈ firsts key l)
    (h : key a = key b) : a = b :=
  List.inj_on_of_nodup_map (nodup_firsts l) ha hb h
