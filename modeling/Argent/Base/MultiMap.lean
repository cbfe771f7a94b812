import Argent.Base.BTree
import Argent.Base.Saturate
import Mathlib.Algebra.BigOperators.Group.Finset.Basic
import Mathlib.Algebra.GroupWithZero.Nat
import Mathlib.Algebra.Order.BigOperators.Group.Finset
import Mathlib.Data.Finset.Union
import Mathlib.Data.Finset.Prod

/-!
# Sets of values under keys

A map from keys to sets of values, as it is filled with `entry(k).or_default()`, and tables of such
maps that are filled from each other.

* `MultiMap.mem_add`, `MultiMap.mem_absorb`      what is under a key after an insertion;
* `MultiMap.marks`      the keys and the values of a map in one finite set;
* `MultiMap.Spreads`    each map of a table keeps what it has and takes what others have;
* `MultiMap.growing`    **a step that only spreads can be repeated until nothing changes**.
-/

set_option linter.unusedSectionVars false

/-- a set of values under each key -/
abbrev MultiMap (κ β : Type*) [LinearOrder κ] [LinearOrder β] := BTreeMap κ (BTreeSet β)

namespace MultiMap
variable {κ β : Type*} [LinearOrder κ] [LinearOrder β]

/-! ## insertion -/

/-- `entry(k).or_default().insert(b)` -/
def add (k : κ) (b : β) (m : MultiMap κ β) : MultiMap κ β := m.modify k (insert b)

theorem mem_add {k x : κ} {b y : β} {m : MultiMap κ β} :
    y ∈ (add k b m).getD x ↔ (x = k ∧ y = b) ∨ y ∈ m.getD x := by
  unfold add
  rw [BTreeMap.getD_modify]
  by_cases h : x = k
  · subst h
    rw [if_pos rfl, BTreeSet.mem_insert]
    simp
  · rw [if_neg h]
    simp [h]

theorem mem_foldl_add {γ : Type*} {key : γ → κ} {value : γ → β} {l : List γ} {m : MultiMap κ β}
    {x : κ} {y : β} :
    y ∈ (l.foldl (fun m c => add (key c) (value c) m) m).getD x ↔
      y ∈ m.getD x ∨ ∃ c ∈ l, key c = x ∧ value c = y := by
  induction l generalizing m with
  | nil => simp
  | cons c l ih =>
    rw [List.foldl_cons, ih, mem_add]
    constructor
    · rintro ((⟨hx, hy⟩ | hy) | ⟨c', hc', hx, hy⟩)
      · exact .inr ⟨c, List.mem_cons_self, hx.symm, hy.symm⟩
      · exact .inl hy
      · exact .inr ⟨c', List.mem_cons_of_mem _ hc', hx, hy⟩
    · rintro (hy | ⟨c', hc', hx, hy⟩)
      · exact .inl (.inr hy)
      · obtain rfl | hc' := List.mem_cons.mp hc'
        · exact .inl (.inl ⟨hx.symm, hy.symm⟩)
        · exact .inr ⟨c', hc', hx, hy⟩

/-- `entry(k).or_default().extend(values)` -/
def addAll (k : κ) (values : BTreeSet β) (m : MultiMap κ β) : MultiMap κ β :=
  m.modify k (·.extend values.toList)

theorem mem_addAll {k x : κ} {values : BTreeSet β} {y : β} {m : MultiMap κ β} :
    y ∈ (addAll k values m).getD x ↔ (x = k ∧ y ∈ values) ∨ y ∈ m.getD x := by
  unfold addAll
  rw [BTreeMap.getD_modify]
  by_cases h : x = k
  · subst h
    rw [if_pos rfl, BTreeSet.mem_extend, BTreeSet.mem_toList]
    simp [or_comm]
  · rw [if_neg h]
    simp [h]

/-- every entry of `n` added to `m` -/
def absorb (m n : MultiMap κ β) : MultiMap κ β :=
  n.entries.foldl (fun m entry => addAll entry.1 entry.2 m) m

theorem mem_foldl_addAll {l : List (κ × BTreeSet β)} {x : κ} {y : β} {m : MultiMap κ β} :
    y ∈ (l.foldl (fun m entry => addAll entry.1 entry.2 m) m).getD x ↔
      y ∈ m.getD x ∨ ∃ values, (x, values) ∈ l ∧ y ∈ values := by
  induction l generalizing m with
  | nil => simp
  | cons entry l ih =>
    obtain ⟨k, values⟩ := entry
    rw [List.foldl_cons, ih, mem_addAll]
    constructor
    · rintro ((⟨rfl, hy⟩ | hy) | ⟨values', hmem, hy⟩)
      · exact .inr ⟨values, List.mem_cons_self, hy⟩
      · exact .inl hy
      · exact .inr ⟨values', List.mem_cons_of_mem _ hmem, hy⟩
    · rintro (hy | ⟨values', hmem, hy⟩)
      · exact .inl (.inr hy)
      · obtain heq | hmem := List.mem_cons.mp hmem
        · obtain ⟨rfl, rfl⟩ := Prod.mk.inj heq
          exact .inl (.inl ⟨rfl, hy⟩)
        · exact .inr ⟨values', hmem, hy⟩

theorem mem_getD {m : MultiMap κ β} {x : κ} {y : β} :
    y ∈ m.getD x ↔ ∃ values, m.get x = some values ∧ y ∈ values := by
  unfold BTreeMap.getD
  cases h : m.get x with
  | none => simp
  | some values => simp

theorem mem_absorb {m n : MultiMap κ β} {x : κ} {y : β} :
    y ∈ (absorb m n).getD x ↔ y ∈ m.getD x ∨ y ∈ n.getD x := by
  unfold absorb
  rw [mem_foldl_addAll, mem_getD (m := n)]
  simp only [BTreeMap.mem_entries]

theorem mem_keys_foldl_addAll {l : List (κ × BTreeSet β)} {x : κ} {m : MultiMap κ β} :
    x ∈ (l.foldl (fun m entry => addAll entry.1 entry.2 m) m).keys ↔
      x ∈ m.keys ∨ ∃ values, (x, values) ∈ l := by
  induction l generalizing m with
  | nil => simp
  | cons entry l ih =>
    have hkeys : x ∈ (addAll entry.1 entry.2 m).keys ↔ x = entry.1 ∨ x ∈ m.keys :=
      BTreeSet.mem_insert
    rw [List.foldl_cons, ih, hkeys]
    constructor
    · rintro ((rfl | hx) | ⟨values, hmem⟩)
      · exact .inr ⟨entry.2, List.mem_cons_self⟩
      · exact .inl hx
      · exact .inr ⟨values, List.mem_cons_of_mem _ hmem⟩
    · rintro (hx | ⟨values, hmem⟩)
      · exact .inl (.inr hx)
      · obtain heq | hmem := List.mem_cons.mp hmem
        · exact .inl (.inl (congrArg Prod.fst heq))
        · exact .inr ⟨values, hmem⟩

theorem mem_keys_absorb {m n : MultiMap κ β} {x : κ} :
    x ∈ (absorb m n).keys ↔ x ∈ m.keys ∨ x ∈ n.keys := by
  unfold absorb
  rw [mem_keys_foldl_addAll, n.mem_keys, Option.isSome_iff_exists]
  simp only [BTreeMap.mem_entries]

/-! ## the keys and the values in one set -/

/-- a mark for each key and one for each value under it -/
def marks (m : MultiMap κ β) : Finset (κ × Option β) :=
  m.keys.toFinset.biUnion fun k =>
    insert (k, none) ((m.getD k).toFinset.image fun b => (k, some b))

theorem mem_keys_of_mem_getD {m : MultiMap κ β} {k : κ} {b : β} (h : b ∈ m.getD k) :
    k ∈ m.keys := by
  obtain ⟨values, hget, _⟩ := mem_getD.mp h
  rw [m.mem_keys, hget]
  rfl

theorem mem_marks_none {m : MultiMap κ β} {k : κ} : (k, none) ∈ marks m ↔ k ∈ m.keys := by
  simp [marks]

theorem mem_marks_some {m : MultiMap κ β} {k : κ} {b : β} :
    (k, some b) ∈ marks m ↔ b ∈ m.getD k := by
  simp only [marks, Finset.mem_biUnion, Finset.mem_insert, Finset.mem_image, Prod.mk.injEq,
    reduceCtorEq, and_false, false_or, BTreeSet.mem_toFinset, Option.some.injEq]
  constructor
  · rintro ⟨k', _, b', hb, rfl, rfl⟩
    exact hb
  · intro hb
    exact ⟨k, mem_keys_of_mem_getD hb, b, hb, rfl, rfl⟩

theorem marks_inj {m n : MultiMap κ β} (h : marks m = marks n) : m = n := by
  have hkeys : m.keys = n.keys := BTreeSet.ext_mem fun k => by
    rw [← mem_marks_none, h, mem_marks_none]
  have hgetD : ∀ k, m.getD k = n.getD k := fun k => BTreeSet.ext_mem fun b => by
    rw [← mem_marks_some, h, mem_marks_some]
  refine BTreeMap.eq_iff_keys.mpr ⟨hkeys, fun k hk => ?_⟩
  obtain ⟨values, hm⟩ := Option.isSome_iff_exists.mp ((m.mem_keys k).mp hk)
  obtain ⟨values', hn⟩ := Option.isSome_iff_exists.mp ((n.mem_keys k).mp (hkeys ▸ hk))
  have heq : values = values' := by
    have hboth := hgetD k
    unfold BTreeMap.getD at hboth
    rwa [hm, hn] at hboth
  rw [hm, hn, heq]

theorem marks_absorb (m n : MultiMap κ β) : marks (absorb m n) = marks m ∪ marks n := by
  apply Finset.ext
  rintro ⟨k, value⟩
  rw [Finset.mem_union]
  cases value with
  | none => rw [mem_marks_none, mem_marks_none, mem_marks_none, mem_keys_absorb]
  | some b => rw [mem_marks_some, mem_marks_some, mem_marks_some, mem_absorb]

theorem marks_subset_absorb (m n : MultiMap κ β) : marks m ⊆ marks (absorb m n) := by
  rw [marks_absorb]
  exact Finset.subset_union_left

theorem marks_absorb_subset {m n : MultiMap κ β} {s : Finset (κ × Option β)} (hm : marks m ⊆ s)
    (hn : marks n ⊆ s) : marks (absorb m n) ⊆ s := by
  rw [marks_absorb]
  exact Finset.union_subset hm hn

/-! ## tables of maps -/

/-- everything that is in some map of the table -/
def tableMarks (table : List (MultiMap κ β)) : Finset (κ × Option β) :=
  table.foldr (fun m s => marks m ∪ s) ∅

theorem marks_subset_tableMarks {table : List (MultiMap κ β)} {m : MultiMap κ β} (h : m ∈ table) :
    marks m ⊆ tableMarks table := by
  induction table with
  | nil => exact absurd h List.not_mem_nil
  | cons n table ih =>
    obtain rfl | h := List.mem_cons.mp h
    · exact Finset.subset_union_left
    · exact (ih h).trans Finset.subset_union_right

theorem tableMarks_subset {table : List (MultiMap κ β)} {s : Finset (κ × Option β)}
    (h : ∀ m ∈ table, marks m ⊆ s) : tableMarks table ⊆ s := by
  induction table with
  | nil => exact Finset.empty_subset s
  | cons n table ih =>
    refine Finset.union_subset (h n List.mem_cons_self) (ih fun m hm => ?_)
    exact h m (List.mem_cons_of_mem _ hm)

/-- the number of marks in a table, map by map -/
def tableSize (table : List (MultiMap κ β)) : Nat := (table.map fun m => (marks m).card).sum

theorem tableSize_le {table : List (MultiMap κ β)} {s : Finset (κ × Option β)}
    (h : ∀ m ∈ table, marks m ⊆ s) : tableSize table ≤ table.length * s.card := by
  induction table with
  | nil => exact Nat.zero_le _
  | cons m table ih =>
    have hm := Finset.card_le_card (h m List.mem_cons_self)
    have htable := ih fun n hn => h n (List.mem_cons_of_mem _ hn)
    unfold tableSize at htable ⊢
    rw [List.map_cons, List.sum_cons, List.length_cons, Nat.succ_mul]
    omega

/-- each map of the table keeps what it has -/
def Keeps (table next : List (MultiMap κ β)) : Prop :=
  List.Forall₂ (fun m n => marks m ⊆ marks n) table next

theorem Keeps.tableSize_le {table next : List (MultiMap κ β)} (h : Keeps table next) :
    tableSize table ≤ tableSize next := by
  induction h with
  | nil => exact le_rfl
  | @cons m n table next hmn _ ih =>
    have hcard := Finset.card_le_card hmn
    unfold tableSize at ih ⊢
    rw [List.map_cons, List.map_cons, List.sum_cons, List.sum_cons]
    omega

theorem Keeps.tableSize_lt {table next : List (MultiMap κ β)} (h : Keeps table next)
    (hne : next ≠ table) : tableSize table < tableSize next := by
  induction h with
  | nil => exact absurd rfl hne
  | @cons m n table next hmn hrest ih =>
    have hle := Finset.card_le_card hmn
    have hrestle := Keeps.tableSize_le hrest
    unfold tableSize at ih hrestle ⊢
    rw [List.map_cons, List.map_cons, List.sum_cons, List.sum_cons]
    by_cases heq : marks m = marks n
    · have hmn' : n = m := (marks_inj heq).symm
      have hlt := ih fun hnext => hne (by rw [hmn', hnext])
      omega
    · have hlt := Finset.card_lt_card (Finset.ssubset_iff_subset_ne.mpr ⟨hmn, heq⟩)
      omega

/-- each map keeps what it has and takes only what is in the table -/
structure Spreads (table next : List (MultiMap κ β)) : Prop where
  keeps : Keeps table next
  takes : ∀ n ∈ next, marks n ⊆ tableMarks table

/-- **a step that only spreads can be repeated until nothing changes** -/
def growing {step : List (MultiMap κ β) → List (MultiMap κ β)}
    (h : ∀ table, Spreads table (step table)) : Argent.Saturate.Growing step where
  size := tableSize
  bound := fun table => table.length * (tableMarks table).card
  size_le := fun _ => tableSize_le fun _ => marks_subset_tableMarks
  grows := fun table hne => (h table).keeps.tableSize_lt hne
  bound_le := fun table => by
    have hmarks := Finset.card_le_card (tableMarks_subset (h table).takes)
    have hlength : table.length = (step table).length := (h table).keeps.length_eq
    rw [← hlength]
    exact Nat.mul_le_mul_left _ hmarks

end MultiMap
