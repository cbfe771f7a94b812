import Argent.Base.BTree
import Argent.Base.Panics

/-!
# Lists indexed by their keys

A list is read into a map under keys that must not repeat, and its elements are checked on the way.

* `indexUnique_ok`      **the map of a successful reading has exactly the elements of the list**;
* `exists_foldlM_fresh`      a loop that refuses a key it has seen succeeds on lists without one.
-/

set_option linter.unusedSectionVars false

namespace Argent.Fallible
universe u v
variable {ε : Type u} {κ α : Type v} [LinearOrder κ]

/-- reads `l` into a map, refusing a repeated key before it checks the element -/
def indexUnique (key : α → κ) (duplicate : α → ε) (check : α → Except ε PUnit) (l : List α) :
    Except ε (BTreeMap κ α) :=
  l.foldlM (fun byKey a => do
    rejectIf (byKey.contains (key a)) (duplicate a)
    check a
    pure (byKey.insert (key a) a)) ∅

/-- what a map of the elements of `l` by their keys has to satisfy -/
structure Indexes (key : α → κ) (l : List α) (byKey : BTreeMap κ α) : Prop where
  get_iff : ∀ k a, byKey.get k = some a ↔ a ∈ l ∧ key a = k
  nodup : (l.map key).Nodup

namespace Indexes
variable {key : α → κ} {l : List α} {byKey : BTreeMap κ α}

theorem get_key (h : Indexes key l byKey) {a : α} (ha : a ∈ l) : byKey.get (key a) = some a :=
  (h.get_iff _ _).mpr ⟨ha, rfl⟩

theorem mem (h : Indexes key l byKey) {k : κ} {a : α} (hk : byKey.get k = some a) : a ∈ l :=
  ((h.get_iff k a).mp hk).1

theorem inj (h : Indexes key l byKey) {a b : α} (ha : a ∈ l) (hb : b ∈ l) (hab : key a = key b) :
    a = b := by
  have hget := h.get_key ha
  rw [hab, h.get_key hb] at hget
  exact (Option.some.inj hget).symm

theorem find? [DecidableEq κ] (h : Indexes key l byKey) (k : κ) :
    l.find? (fun a => key a == k) = byKey.get k := by
  cases hget : byKey.get k with
  | none =>
    rw [List.find?_eq_none]
    intro a ha hk
    rw [← beq_iff_eq.mp hk, h.get_key ha] at hget
    cases hget
  | some a =>
    obtain ⟨ha, hk⟩ := (h.get_iff k a).mp hget
    cases hfind : l.find? (fun a => key a == k) with
    | none =>
      have hno := List.find?_eq_none.mp hfind a ha
      exact absurd (beq_iff_eq.mpr hk) hno
    | some b =>
      have hb := List.find?_some hfind
      rw [h.inj ha (List.mem_of_find?_eq_some hfind) (hk.trans (beq_iff_eq.mp hb).symm)]

end Indexes

theorem indexUnique_ok {key : α → κ} {duplicate : α → ε} {check : α → Except ε PUnit} {l : List α}
    {byKey : BTreeMap κ α} (h : indexUnique key duplicate check l = .ok byKey) :
    Indexes key l byKey ∧ ∀ a ∈ l, check a = .ok ⟨⟩ := by
  refine foldlM_ok (fun done byKey => Indexes key done byKey ∧ ∀ a ∈ done, check a = .ok ⟨⟩) h
    ⟨⟨fun k a => ?_, List.nodup_nil⟩, fun a ha => absurd ha List.not_mem_nil⟩ ?_
  · simp
  · intro done byKey a byKey' _ ⟨hindex, hchecks⟩ hstep
    obtain ⟨hnew, hstep⟩ := check_eq_ok.mp hstep
    obtain ⟨hcheck, hstep⟩ := check_eq_ok.mp hstep
    obtain rfl := pure_eq_ok.mp hstep
    have hnone : byKey.get (key a) = none := by
      rw [rejectIf_eq_ok] at hnew
      exact Option.not_isSome_iff_eq_none.mp hnew
    have hfresh : ∀ b ∈ done, key b ≠ key a := fun b hb hab => by
      rw [← hab, hindex.get_key hb] at hnone
      cases hnone
    refine ⟨⟨fun k b => ?_, ?_⟩, fun b hb => ?_⟩
    · rw [BTreeMap.get_insert]
      split_ifs with hk
      · subst hk
        constructor
        · intro hb
          obtain rfl := Option.some.inj hb
          exact ⟨List.mem_append_right _ List.mem_cons_self, rfl⟩
        · rintro ⟨hb, hkey⟩
          obtain hb | hb := List.mem_append.mp hb
          · exact absurd hkey (hfresh b hb)
          · rw [List.mem_singleton.mp hb]
      · rw [hindex.get_iff]
        constructor
        · rintro ⟨hb, hkey⟩
          exact ⟨List.mem_append_left _ hb, hkey⟩
        · rintro ⟨hb, hkey⟩
          obtain hb | hb := List.mem_append.mp hb
          · exact ⟨hb, hkey⟩
          · rw [List.mem_singleton.mp hb] at hkey
            exact absurd hkey.symm hk
    · rw [List.map_append, List.nodup_append]
      refine ⟨hindex.nodup, List.nodup_singleton _, ?_⟩
      intro k hk k' hk'
      obtain ⟨b, hb, rfl⟩ := List.mem_map.mp hk
      rw [List.mem_singleton.mp hk']
      exact hfresh b hb
    · obtain hb | hb := List.mem_append.mp hb
      · exact hchecks b hb
      · rw [List.mem_singleton.mp hb]
        exact hcheck

/-- reading a list panics only where a check of an element does -/
theorem Avoids.indexUnique {ε κ α : Type u} [LinearOrder κ] {bad : String → Prop} {key : α → κ}
    {duplicate : α → ε} {check : α → Except (Fault ε) PUnit.{u + 1}} {l : List α}
    (h : ∀ a ∈ l, Avoids bad (check a)) :
    Avoids bad (Fallible.indexUnique key (fun a => .error (duplicate a)) check l) := by
  refine Avoids.foldlM fun byKey a ha => ?_
  refine Avoids.bind (Avoids.rejectIf _ _) fun _ _ => ?_
  refine Avoids.bind (h a ha) fun _ _ => ?_
  exact Avoids.pure _

/-- a loop that collects keys and refuses one that it has seen -/
theorem exists_foldlM_fresh {key : α → κ} {step : BTreeSet κ → α → Except ε (BTreeSet κ)}
    {l : List α} (hseen : ∀ a ∈ l, ∀ seen, key a ∈ seen → ∃ e, step seen a = .error e)
    (hfresh : ∀ a ∈ l, ∀ seen, key a ∉ seen → step seen a = .ok (insert (key a) seen))
    (seen : BTreeSet κ) :
    (∃ out, l.foldlM step seen = .ok out) ↔ (l.map key).Nodup ∧ ∀ a ∈ l, key a ∉ seen := by
  induction l generalizing seen with
  | nil => exact ⟨fun _ => ⟨List.nodup_nil, fun _ h => absurd h List.not_mem_nil⟩, fun _ => ⟨seen, rfl⟩⟩
  | cons a l ih =>
    have ih := ih (fun b hb => hseen b (List.mem_cons_of_mem _ hb))
      (fun b hb => hfresh b (List.mem_cons_of_mem _ hb)) (insert (key a) seen)
    rw [List.map_cons, List.nodup_cons]
    by_cases ha : key a ∈ seen
    · obtain ⟨e, he⟩ := hseen a List.mem_cons_self seen ha
      constructor
      · rintro ⟨out, h⟩
        rw [List.foldlM_cons, he] at h
        cases h
      · exact fun h => absurd ha (h.2 a List.mem_cons_self)
    · have hstep := hfresh a List.mem_cons_self seen ha
      have hcons : (∃ out, (a :: l).foldlM step seen = .ok out) ↔
          ∃ out, l.foldlM step (insert (key a) seen) = .ok out := by
        rw [List.foldlM_cons, hstep]
        rfl
      rw [hcons, ih]
      constructor
      · rintro ⟨hnodup, hnew⟩
        refine ⟨⟨fun hin => ?_, hnodup⟩, fun b hb => ?_⟩
        · obtain ⟨b, hb, hkey⟩ := List.mem_map.mp hin
          exact hnew b hb (BTreeSet.mem_insert.mpr (.inl hkey))
        · obtain rfl | hb := List.mem_cons.mp hb
          · exact ha
          · exact fun hin => hnew b hb (BTreeSet.mem_insert.mpr (.inr hin))
      · rintro ⟨⟨hnotin, hnodup⟩, hnew⟩
        refine ⟨hnodup, fun b hb hin => ?_⟩
        obtain hkey | hin := BTreeSet.mem_insert.mp hin
        · exact hnotin (hkey ▸ List.mem_map_of_mem hb)
        · exact hnew b (List.mem_cons_of_mem _ hb) hin

end Argent.Fallible
