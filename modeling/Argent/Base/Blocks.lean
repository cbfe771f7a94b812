import Mathlib.Data.List.Basic
import Mathlib.Tactic.Common

/-!
# Concatenated blocks

Lists put together from blocks of one width.

* `Blocks.length_flatMap`      the length of the whole;
* `Blocks.take_drop_flatMap`      **the block at a position is the slice at its offset**.
-/

set_option linter.unusedSectionVars false

namespace Blocks
variable {α β : Type*} {f : β → List α} {width : Nat}

theorem length_flatMap {l : List β} (h : ∀ b ∈ l, (f b).length = width) :
    (l.flatMap f).length = l.length * width := by
  induction l with
  | nil => exact (Nat.zero_mul width).symm
  | cons b l ih =>
    rw [List.flatMap_cons, List.length_append, h b List.mem_cons_self,
      ih fun b' hb' => h b' (List.mem_cons_of_mem _ hb'), List.length_cons, Nat.succ_mul,
      Nat.add_comm]

theorem take_drop_flatMap {l : List β} (h : ∀ b ∈ l, (f b).length = width) {index : Nat} {b : β}
    (hindex : l[index]? = some b) : ((l.flatMap f).drop (index * width)).take width = f b := by
  induction l generalizing index with
  | nil => cases hindex
  | cons b' l ih =>
    have hwidth := h b' List.mem_cons_self
    rw [List.flatMap_cons]
    cases index with
    | zero =>
      rw [List.getElem?_cons_zero, Option.some_inj] at hindex
      rw [Nat.zero_mul, List.drop_zero, List.take_left' hwidth, hindex]
    | succ index =>
      rw [List.getElem?_cons_succ] at hindex
      rw [Nat.succ_mul, Nat.add_comm, ← List.drop_drop, List.drop_left' hwidth]
      exact ih (fun b'' hb'' => h b'' (List.mem_cons_of_mem _ hb'')) hindex

end Blocks
