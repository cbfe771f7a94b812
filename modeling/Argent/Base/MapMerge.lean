import Argent.Base.BTree
import Argent.Base.Fallible

/-!
# Merging maps

Maps that are merged one after the other, with a check on each entry, and what does not depend on the
order.

* `BTreeMap.foldlM_entries_ok`      the entries of a map inserted into another one;
* `BTreeMap.IsUnion`      a map with the entries of several maps;
* `IsUnion.unique`, `IsUnion.perm`      **a union does not depend on the order**;
* `mapM_perm`, `foldlM_mapM`      the steps of a loop apart from what it collects.
-/

set_option linter.unusedSectionVars false

namespace BTreeMap
open Argent.Fallible
variable {α : Type} {β ε : Type} [LinearOrder α]

/-! ## the entries of a map -/

theorem nodup_entries (m : BTreeMap α β) : (m.entries.map Prod.fst).Nodup := by
  have hkeys : m.entries.map Prod.fst = m.keys.toList.filter fun a => (m.get a).isSome := by
    unfold entries
    induction m.keys.toList with
    | nil => rfl
    | cons a keys ih =>
      rw [List.filterMap_cons, List.filter_cons]
      cases hget : m.get a with
      | none => exact ih
      | some b => exact congrArg (a :: ·) ih
  rw [hkeys]
  exact m.keys.nodup.filter _

theorem get_foldl_insert {l : List (α × β)} (hl : (l.map Prod.fst).Nodup) (m : BTreeMap α β) (a : α) :
    (l.foldl (fun m item => m.insert item.1 item.2) m).get a =
      ((l.find? fun item => decide (item.1 = a)).map Prod.snd).or (m.get a) := by
  induction l generalizing m with
  | nil => rfl
  | cons item l ih =>
    rw [List.map_cons, List.nodup_cons] at hl
    rw [List.foldl_cons, ih hl.2, get_insert, List.find?_cons]
    by_cases ha : item.1 = a
    · have hnone : (l.find? fun item => decide (item.1 = a)) = none := by
        rw [List.find?_eq_none]
        intro other hother heq
        exact hl.1 (ha ▸ of_decide_eq_true heq ▸ List.mem_map_of_mem (f := Prod.fst) hother)
      rw [hnone, if_pos ha.symm, decide_eq_true ha]
      rfl
    · rw [if_neg fun h => ha h.symm, decide_eq_false ha]

theorem foldl_insert_entries (m n : BTreeMap α β) :
    n.entries.foldl (fun m item => m.insert item.1 item.2) m = m.extend n := by
  refine ext_get fun a => ?_
  rw [get_foldl_insert n.nodup_entries, get_extend]
  congr 1
  cases hfind : n.entries.find? fun item => decide (item.1 = a) with
  | none =>
    cases hget : n.get a with
    | none => rfl
    | some b =>
      have hnot := List.find?_eq_none.mp hfind (a, b) (mem_entries.mpr hget)
      exact absurd (decide_eq_true rfl) hnot
  | some item =>
    have hitem := List.find?_some hfind
    have hmem := mem_entries.mp (List.mem_of_find?_eq_some hfind)
    rw [← of_decide_eq_true hitem]
    exact hmem.symm

section
variable {f : BTreeMap α β → α × β → Except ε (BTreeMap α β)} {allowed : α → β → Option β → Prop}
  {m n out : BTreeMap α β}

theorem foldlM_distinct_ok (hf : ∀ m a b out, f m (a, b) = .ok out ↔
      allowed a b (m.get a) ∧ out = m.insert a b)
    {l : List (α × β)} (hl : (l.map Prod.fst).Nodup) : l.foldlM f m = .ok out ↔
      (∀ a b, (a, b) ∈ l → allowed a b (m.get a)) ∧
        out = l.foldl (fun m item => m.insert item.1 item.2) m := by
  induction l generalizing m with
  | nil =>
    constructor
    · intro h
      exact ⟨fun a b hmem => absurd hmem List.not_mem_nil, (Except.ok.inj h).symm⟩
    · rintro ⟨-, rfl⟩
      rfl
  | cons item l ih =>
    obtain ⟨a, b⟩ := item
    rw [List.map_cons, List.nodup_cons] at hl
    have hother : ∀ {a' b'}, (a', b') ∈ l → (m.insert a b).get a' = m.get a' := by
      intro a' b' hmem
      refine get_insert_of_ne ?_ b m
      rintro rfl
      have hkey := List.mem_map_of_mem (f := Prod.fst) hmem
      exact hl.1 hkey
    rw [List.foldlM_cons, bind_eq_ok, List.foldl_cons]
    constructor
    · rintro ⟨next, hnext, hrest⟩
      obtain ⟨hallowed, rfl⟩ := (hf m a b next).mp hnext
      obtain ⟨hall, rfl⟩ := (ih hl.2).mp hrest
      refine ⟨fun a' b' hmem => ?_, rfl⟩
      obtain heq | hmem := List.mem_cons.mp hmem
      · obtain ⟨rfl, rfl⟩ := Prod.mk.inj heq
        exact hallowed
      · rw [← hother hmem]
        exact hall a' b' hmem
    · rintro ⟨hall, hout⟩
      refine ⟨_, (hf m a b _).mpr ⟨hall a b List.mem_cons_self, rfl⟩, (ih hl.2).mpr ⟨?_, hout⟩⟩
      intro a' b' hmem
      rw [hother hmem]
      exact hall a' b' (List.mem_cons_of_mem _ hmem)

/-- **The entries of a map are inserted when each is allowed beside the entry it replaces.** -/
theorem foldlM_entries_ok (hf : ∀ m a b out, f m (a, b) = .ok out ↔
      allowed a b (m.get a) ∧ out = m.insert a b) : n.entries.foldlM f m = .ok out ↔
      (∀ a b, n.get a = some b → allowed a b (m.get a)) ∧ out = m.extend n := by
  rw [foldlM_distinct_ok hf n.nodup_entries, foldl_insert_entries]
  simp only [mem_entries]

end

/-! ## unions -/

/-- `out` has the entries of all parts -/
def IsUnion (parts : List (BTreeMap α β)) (out : BTreeMap α β) : Prop :=
  ∀ a b, out.get a = some b ↔ ∃ part ∈ parts, part.get a = some b

namespace IsUnion
variable {parts parts' : List (BTreeMap α β)} {out out' part : BTreeMap α β}

theorem nil : IsUnion ([] : List (BTreeMap α β)) ∅ := by
  intro a b
  constructor
  · intro h
    cases h
  · rintro ⟨part, hpart, -⟩
    cases hpart

theorem unique (h : IsUnion parts out) (h' : IsUnion parts out') : out = out' := by
  refine ext_get fun a => Option.ext fun b => ?_
  rw [h a b, h' a b]

theorem get_iff {γ : Type} {f : γ → BTreeMap α β} {l : List γ} (h : IsUnion (l.map f) out) {a : α}
    {b : β} : out.get a = some b ↔ ∃ c ∈ l, (f c).get a = some b := by
  rw [h a b]
  simp only [List.mem_map, exists_exists_and_eq_and]

theorem perm (h : IsUnion parts out) (hperm : parts.Perm parts') : IsUnion parts' out := by
  intro a b
  rw [h a b]
  simp only [hperm.mem_iff]

theorem snoc (h : IsUnion parts out)
    (hagree : ∀ a b c, out.get a = some b → part.get a = some c → b = c) :
    IsUnion (parts ++ [part]) (out.extend part) := by
  intro a b
  rw [get_extend, Option.or_eq_some_iff]
  constructor
  · rintro (hpart | ⟨-, hout⟩)
    · exact ⟨part, List.mem_append_right _ List.mem_cons_self, hpart⟩
    · obtain ⟨other, hother, hget⟩ := (h a b).mp hout
      exact ⟨other, List.mem_append_left _ hother, hget⟩
  · rintro ⟨other, hother, hget⟩
    obtain hother | hother := List.mem_append.mp hother
    · have hout := (h a b).mpr ⟨other, hother, hget⟩
      cases hpart : part.get a with
      | none => exact .inr ⟨rfl, hout⟩
      | some c => exact .inl (congrArg some (hagree a b c hout hpart).symm)
    · obtain rfl := List.mem_singleton.mp hother
      exact .inl hget

end IsUnion

end BTreeMap

namespace Argent.Fallible
variable {ε : Type} {α β σ : Type}

/-! ## loops over what is computed first -/

/-- a loop whose steps compute something, as a traversal and a loop -/
theorem foldlM_mapM {f : α → Except ε β} {g : σ → β → Except ε σ} {l : List α} {init out : σ} :
    l.foldlM (fun s a => f a >>= g s) init = .ok out ↔
      ∃ parts, l.mapM f = .ok parts ∧ parts.foldlM g init = .ok out := by
  induction l generalizing init with
  | nil =>
    constructor
    · intro h
      exact ⟨[], rfl, h⟩
    · rintro ⟨parts, hparts, h⟩
      cases hparts
      exact h
  | cons a l ih =>
    rw [List.foldlM_cons, bind_eq_ok, List.mapM_cons]
    constructor
    · rintro ⟨next, hnext, hrest⟩
      obtain ⟨part, hpart, hstep⟩ := bind_eq_ok.mp hnext
      obtain ⟨parts, hparts, hfold⟩ := ih.mp hrest
      refine ⟨part :: parts, ?_, ?_⟩
      · exact bind_eq_ok.mpr ⟨part, hpart, bind_eq_ok.mpr ⟨parts, hparts, rfl⟩⟩
      · rw [List.foldlM_cons]
        exact bind_eq_ok.mpr ⟨next, hstep, hfold⟩
    · rintro ⟨all, hall, hfold⟩
      obtain ⟨part, hpart, hrest⟩ := bind_eq_ok.mp hall
      obtain ⟨parts, hparts, hout⟩ := bind_eq_ok.mp hrest
      cases hout
      rw [List.foldlM_cons] at hfold
      obtain ⟨next, hstep, hfold⟩ := bind_eq_ok.mp hfold
      exact ⟨next, bind_eq_ok.mpr ⟨part, hpart, hstep⟩, ih.mpr ⟨parts, hparts, hfold⟩⟩

theorem mapM_perm {f : α → Except ε β} {l l' : List α} (hperm : l.Perm l') {parts : List β}
    (h : l.mapM f = .ok parts) : ∃ parts', l'.mapM f = .ok parts' ∧ parts.Perm parts' := by
  induction hperm generalizing parts with
  | nil => exact ⟨parts, h, List.Perm.refl parts⟩
  | cons a hperm ih =>
    rw [List.mapM_cons] at h
    obtain ⟨part, hpart, h⟩ := bind_eq_ok.mp h
    obtain ⟨rest, hrest, h⟩ := bind_eq_ok.mp h
    cases h
    obtain ⟨rest', hrest', hrests⟩ := ih hrest
    refine ⟨part :: rest', ?_, hrests.cons part⟩
    rw [List.mapM_cons]
    exact bind_eq_ok.mpr ⟨part, hpart, bind_eq_ok.mpr ⟨rest', hrest', rfl⟩⟩
  | swap a b l =>
    rw [List.mapM_cons] at h
    obtain ⟨second, hsecond, h⟩ := bind_eq_ok.mp h
    obtain ⟨tail, htail, h⟩ := bind_eq_ok.mp h
    cases h
    rw [List.mapM_cons] at htail
    obtain ⟨first, hfirst, htail⟩ := bind_eq_ok.mp htail
    obtain ⟨rest, hrest, htail⟩ := bind_eq_ok.mp htail
    cases htail
    refine ⟨first :: second :: rest, ?_, List.Perm.swap first second rest⟩
    rw [List.mapM_cons, List.mapM_cons, hfirst, hsecond, hrest]
    rfl
  | trans _ _ ih ih' =>
    obtain ⟨middle, hmiddle, hparts⟩ := ih h
    obtain ⟨last, hlast, hmiddles⟩ := ih' hmiddle
    exact ⟨last, hlast, hparts.trans hmiddles⟩

end Argent.Fallible
