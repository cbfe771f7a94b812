import Mathlib.Data.List.Basic
import Mathlib.Data.String.Basic
import Mathlib.Tactic.Common

/-!
# Texts in segments

Segments joined by a character that none of them contains.

* `intercalate_injective`      **the segments can be read off the joined text**.
-/

set_option linter.unusedSectionVars false

/-- **the segments can be read off the joined text** -/
theorem intercalate_injective {sep : Char} {l m : List String} (hl : l ≠ []) (hm : m ≠ [])
    (hfree : ∀ s ∈ l, sep ∉ s.toList) (hfree' : ∀ s ∈ m, sep ∉ s.toList)
    (h : (String.singleton sep).intercalate l = (String.singleton sep).intercalate m) : l = m := by
  have hread : ∀ {l : List String}, l ≠ [] → (∀ s ∈ l, sep ∉ s.toList) →
      ((String.singleton sep).intercalate l).toList.splitOn sep = l.map String.toList := by
    intro l hl hfree
    rw [String.toList_intercalate, String.toList_singleton]
    refine List.splitOn_intercalate sep (fun chars hchars => ?_) ?_
    · obtain ⟨s, hs, rfl⟩ := List.mem_map.mp hchars
      exact hfree s hs
    · exact fun hnil => hl (List.map_eq_nil_iff.mp hnil)
  have hlists := hread hl hfree
  rw [h, hread hm hfree'] at hlists
  exact (List.map_injective_iff.mpr (fun _ _ h => String.toList_injective h) hlists).symm
