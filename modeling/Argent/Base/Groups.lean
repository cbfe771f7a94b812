import Argent.Base.BTree
import Argent.Base.Fallible

/-!
# Values collected by their keys

A list of keyed values is read into a map that collects, under each key, the values with that key
in the order of the list.

* `Collects`      what such a map has to satisfy;
* `Collects.push`      **pushing a value under its key extends what is collected**;
* `positions_congr`      the positions of what is chosen in a list.
-/

set_option linter.unusedSectionVars false

namespace Groups
variable {κ β : Type*} [LinearOrder κ]

/-- the values of `l` with the key `k` -/
def collect (k : κ) (l : List (κ × β)) : List β := (l.filter (·.1 = k)).map (·.2)

theorem collect_append (k : κ) (l m : List (κ × β)) :
    collect k (l ++ m) = collect k l ++ collect k m := by
  unfold collect
  rw [List.filter_append, List.map_append]

theorem collect_singleton (k a : κ) (b : β) :
    collect k [(a, b)] = if a = k then [b] else [] := by
  unfold collect
  rw [List.filter_singleton]
  by_cases h : a = k
  · simp [h]
  · simp [h]

theorem mem_collect {k : κ} {l : List (κ × β)} {b : β} : b ∈ collect k l ↔ (k, b) ∈ l := by
  unfold collect
  rw [List.mem_map]
  constructor
  · rintro ⟨⟨a, b'⟩, hmem, rfl⟩
    rw [List.mem_filter, decide_eq_true_eq] at hmem
    obtain ⟨hmem, rfl⟩ := hmem
    exact hmem
  · intro hmem
    exact ⟨(k, b), List.mem_filter.mpr ⟨hmem, decide_eq_true rfl⟩, rfl⟩

/-- `entry(a).or_default().push(b)` -/
def push (a : κ) (b : β) (m : BTreeMap κ (List β)) : BTreeMap κ (List β) :=
  m.modify a (· ++ [b])

/-- the map has the nonempty collections of `l` -/
def Collects (l : List (κ × β)) (m : BTreeMap κ (List β)) : Prop :=
  ∀ k, m.get k = if collect k l = [] then none else some (collect k l)

variable {l : List (κ × β)} {m : BTreeMap κ (List β)}

theorem Collects.getD (h : Collects l m) (k : κ) : m.getD k = collect k l := by
  unfold BTreeMap.getD
  rw [h k]
  split_ifs with hnil
  · rw [hnil]
    rfl
  · rfl

theorem Collects.push (h : Collects l m) (a : κ) (b : β) :
    Collects (l ++ [(a, b)]) (Groups.push a b m) := by
  intro k
  unfold Groups.push
  rw [BTreeMap.get_modify, collect_append, collect_singleton]
  by_cases hk : k = a
  · subst hk
    rw [if_pos rfl, if_pos rfl, h.getD, if_neg (by simp)]
  · have hne : ¬ a = k := fun heq => hk heq.symm
    simp only [if_neg hk, if_neg hne, List.append_nil]
    exact h k

theorem Collects.get_some (h : Collects l m) {k : κ} {bs : List β} (hk : m.get k = some bs) :
    bs = collect k l ∧ bs ≠ [] := by
  rw [h k] at hk
  split_ifs at hk with hnil
  obtain rfl := Option.some.inj hk
  exact ⟨rfl, hnil⟩

theorem Collects.get_of_mem (h : Collects l m) {k : κ} {b : β} (hb : (k, b) ∈ l) :
    m.get k = some (collect k l) := by
  rw [h k, if_neg]
  exact List.ne_nil_of_mem (mem_collect.mpr hb)

/-! ## positions -/

theorem positions_congr {α γ : Type*} {l : List α} {m : List γ} {p : α → Bool} {q : γ → Bool}
    (hlength : l.length = m.length)
    (h : ∀ (i : Nat) a b, l[i]? = some a → m[i]? = some b → p a = q b) :
    (l.zipIdx.filter fun item => p item.1).map (·.2) =
      (m.zipIdx.filter fun item => q item.1).map (·.2) := by
  have hall : List.Forall₂ (fun a b => p a = q b) l m := by
    refine List.forall₂_iff_get.mpr ⟨hlength, fun i hi hi' => ?_⟩
    exact h i _ _ (List.getElem?_eq_getElem hi) (List.getElem?_eq_getElem hi')
  clear h hlength
  suffices hfrom : ∀ start, ((l.zipIdx start).filter fun item => p item.1).map (·.2) =
      ((m.zipIdx start).filter fun item => q item.1).map (·.2) from hfrom 0
  induction hall with
  | nil => exact fun _ => rfl
  | @cons a b l m hab _ ih =>
    intro start
    rw [List.zipIdx_cons, List.zipIdx_cons, List.filter_cons, List.filter_cons, hab]
    split_ifs
    · rw [List.map_cons, List.map_cons, ih]
    · exact ih (start + 1)

end Groups
