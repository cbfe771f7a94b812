import Mathlib.Data.List.Basic
import Mathlib.Tactic.Common

/-!
# Nested brackets

Words over letters of which one opens and one closes.  A word is well nested when reading it keeps
the depth at which it starts and never closes below that.  Then the letter that closes a word is found
in one way only.

* `depthAfter`               the depth behind a word, if nothing closes below zero;
* `WellNested`               a word that comes back to every depth at which it starts;
* `WellNested.append`, `WellNested.wrap`      one word behind another, and a word in brackets;
* `WellNested.close_unique`  **the first letter that closes more than was opened ends the word**.
-/

set_option linter.unusedSectionVars false

variable {α : Type*} [DecidableEq α]

/-- the depth behind the word `w` that starts at depth `n` -/
def depthAfter (opening closing : α) : Nat → List α → Option Nat
  | n, [] => some n
  | n, a :: w =>
    if a = opening then depthAfter opening closing (n + 1) w
    else if a = closing then if n = 0 then none else depthAfter opening closing (n - 1) w
    else depthAfter opening closing n w

def WellNested (opening closing : α) (w : List α) : Prop :=
  ∀ n, depthAfter opening closing n w = some n

variable {opening closing : α} {w v : List α}

theorem depthAfter_append : ∀ {w : List α} {n : Nat}, depthAfter opening closing n (w ++ v) =
    (depthAfter opening closing n w).bind fun n => depthAfter opening closing n v
  | [], n => rfl
  | a :: w, n => by
    rw [List.cons_append, depthAfter, depthAfter]
    split_ifs
    · exact depthAfter_append
    · rfl
    · exact depthAfter_append
    · exact depthAfter_append

namespace WellNested

theorem nil : WellNested opening closing [] := fun _ => rfl

theorem append (h : WellNested opening closing w) (h' : WellNested opening closing v) :
    WellNested opening closing (w ++ v) := by
  intro n
  rw [depthAfter_append, h n]
  exact h' n

theorem cons {a : α} (hopen : a ≠ opening) (hclose : a ≠ closing)
    (h : WellNested opening closing w) : WellNested opening closing (a :: w) := by
  intro n
  rw [depthAfter, if_neg hopen, if_neg hclose]
  exact h n

theorem wrap (hne : opening ≠ closing) (h : WellNested opening closing w) :
    WellNested opening closing (opening :: w ++ [closing]) := by
  intro n
  rw [List.cons_append, depthAfter, if_pos rfl, depthAfter_append, h (n + 1)]
  show depthAfter opening closing (n + 1) [closing] = some n
  rw [depthAfter, if_neg hne.symm, if_pos rfl, if_neg (Nat.succ_ne_zero n)]
  rfl

/-- nothing closes behind a part from the start -/
theorem not_close (hne : opening ≠ closing) (h : WellNested opening closing w)
    (h' : WellNested opening closing (w ++ closing :: v)) : False := by
  have hdepth := h' 0
  rw [depthAfter_append, h 0] at hdepth
  change depthAfter opening closing 0 (closing :: v) = some 0 at hdepth
  rw [depthAfter, if_neg hne.symm, if_pos rfl, if_pos rfl] at hdepth
  cases hdepth

/-- **The letter that closes a word is found in one way**: two well nested words in front of a letter
that closes are one word. -/
theorem close_unique (hne : opening ≠ closing) {r s : List α} (h : WellNested opening closing w)
    (h' : WellNested opening closing v) (heq : w ++ closing :: r = v ++ closing :: s) :
    w = v ∧ r = s := by
  obtain ⟨x, rfl, hrest⟩ | ⟨x, rfl, hrest⟩ := List.append_eq_append_iff.mp heq
  · cases x with
    | nil =>
      obtain ⟨-, rfl⟩ := List.cons.inj hrest
      exact ⟨(List.append_nil w).symm, rfl⟩
    | cons a x =>
      obtain ⟨rfl, -⟩ := List.cons.inj hrest
      exact (not_close hne h h').elim
  · cases x with
    | nil =>
      obtain ⟨-, rfl⟩ := List.cons.inj hrest
      exact ⟨List.append_nil v, rfl⟩
    | cons a x =>
      obtain ⟨rfl, -⟩ := List.cons.inj hrest
      exact (not_close hne h' h).elim

end WellNested
