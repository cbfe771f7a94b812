import Mathlib.Order.Basic
import Mathlib.Data.List.Sort
import Mathlib.Data.Finset.Card
import Mathlib.Data.Finset.Dedup
import Mathlib.Data.Set.Basic

/-!
# Ordered sets and maps

`BTreeSet α` is a set kept as the strictly increasing list of its elements, `BTreeMap α β` a
lookup function together with the ordered set of its keys.  Both are extensional: two sets with
the same members (two maps with the same lookups) are equal, so the order in which elements were
inserted is never visible.

* `BTreeSet.ext_mem`      equality from membership;
* `BTreeSet.mem_insert`, `mem_erase`, `mem_filter`, `mem_extend`, `mem_ofList`   the operations;
* `BTreeSet.head_le`      the first element of the iteration is the least one;
* `BTreeMap.ext_get`      equality from lookup, decided on the keys;
* `BTreeMap.get_insert`, `BTreeMap.mem_entries`   lookup after insertion, iteration in key order.
-/

set_option linter.unusedSectionVars false

/-! ## sets -/

/-- a finite set, iterated in increasing order -/
structure BTreeSet (α : Type*) [LinearOrder α] where
  toList : List α
  sorted : toList.Pairwise (· < ·)
deriving DecidableEq

namespace BTreeSet
variable {α : Type*} [LinearOrder α]

instance : Membership α (BTreeSet α) := ⟨fun s a => a ∈ s.toList⟩

instance (a : α) (s : BTreeSet α) : Decidable (a ∈ s) := inferInstanceAs (Decidable (a ∈ s.toList))

theorem mem_def {a : α} {s : BTreeSet α} : a ∈ s ↔ a ∈ s.toList := Iff.rfl

@[simp] theorem mem_toList {a : α} {s : BTreeSet α} : a ∈ s.toList ↔ a ∈ s := Iff.rfl

theorem nodup (s : BTreeSet α) : s.toList.Nodup :=
  s.sorted.imp (fun h => ne_of_lt h)

theorem ext_mem {s t : BTreeSet α} (h : ∀ a, a ∈ s ↔ a ∈ t) : s = t := by
  obtain ⟨l, hl⟩ := s
  obtain ⟨m, hm⟩ := t
  have hp : l.Perm m := (List.perm_ext_iff_of_nodup (hl.imp fun h => ne_of_lt h)
    (hm.imp fun h => ne_of_lt h)).mpr h
  have e : l = m := hp.eq_of_pairwise (fun a b _ _ h1 h2 => absurd h1 (not_lt_of_gt h2)) hl hm
  subst e
  rfl

/-- the empty set -/
def empty : BTreeSet α := ⟨[], List.Pairwise.nil⟩

instance : EmptyCollection (BTreeSet α) := ⟨empty⟩

instance : Inhabited (BTreeSet α) := ⟨∅⟩

@[simp] theorem toList_empty : (∅ : BTreeSet α).toList = [] := rfl

@[simp] theorem not_mem_empty (a : α) : a ∉ (∅ : BTreeSet α) := by
  rw [mem_def, toList_empty]
  exact List.not_mem_nil

def insertList (a : α) : List α → List α
  | [] => [a]
  | b :: l => if a < b then a :: b :: l else if a = b then b :: l else b :: insertList a l

theorem mem_insertList (a x : α) (l : List α) : x ∈ insertList a l ↔ x = a ∨ x ∈ l := by
  induction l with
  | nil => simp [insertList]
  | cons b l ih =>
    unfold insertList
    split_ifs with h1 h2
    · simp
    · subst h2; simp
    · simp only [List.mem_cons, ih]
      tauto

theorem insertList_sorted (a : α) (l : List α) (hl : l.Pairwise (· < ·)) :
    (insertList a l).Pairwise (· < ·) := by
  induction l with
  | nil => simp [insertList]
  | cons b l ih =>
    obtain ⟨hb, hl'⟩ := List.pairwise_cons.mp hl
    unfold insertList
    split_ifs with h1 h2
    · refine List.pairwise_cons.mpr ⟨fun x hx => ?_, hl⟩
      rcases List.mem_cons.mp hx with rfl | hx
      · exact h1
      · exact lt_trans h1 (hb x hx)
    · exact hl
    · refine List.pairwise_cons.mpr ⟨fun x hx => ?_, ih hl'⟩
      rcases (mem_insertList a x l).mp hx with rfl | hx
      · exact lt_of_le_of_ne (not_lt.mp h1) (Ne.symm h2)
      · exact hb x hx

instance : Insert α (BTreeSet α) := ⟨fun a s => ⟨insertList a s.toList, insertList_sorted a _ s.sorted⟩⟩

instance : Singleton α (BTreeSet α) := ⟨fun a => insert a ∅⟩

@[simp] theorem mem_insert {a x : α} {s : BTreeSet α} : x ∈ insert a s ↔ x = a ∨ x ∈ s :=
  mem_insertList a x s.toList

@[simp] theorem mem_singleton {a x : α} : x ∈ ({a} : BTreeSet α) ↔ x = a := by
  show x ∈ insert a (∅ : BTreeSet α) ↔ x = a
  simp

theorem insert_of_mem {a : α} {s : BTreeSet α} (h : a ∈ s) : insert a s = s := by
  apply ext_mem
  intro x
  rw [mem_insert]
  constructor
  · rintro (rfl | hx)
    · exact h
    · exact hx
  · exact Or.inr

def filter (p : α → Bool) (s : BTreeSet α) : BTreeSet α :=
  ⟨s.toList.filter p, s.sorted.filter p⟩

@[simp] theorem mem_filter {p : α → Bool} {x : α} {s : BTreeSet α} :
    x ∈ s.filter p ↔ x ∈ s ∧ p x = true := by
  show x ∈ s.toList.filter p ↔ _
  rw [List.mem_filter]
  rfl

/-- `BTreeSet::remove` -/
def erase (a : α) (s : BTreeSet α) : BTreeSet α := s.filter (fun b => b != a)

@[simp] theorem mem_erase {a x : α} {s : BTreeSet α} : x ∈ s.erase a ↔ x ∈ s ∧ x ≠ a := by
  unfold erase
  rw [mem_filter]
  simp

/-- `BTreeSet::extend` -/
def extend (s : BTreeSet α) (l : List α) : BTreeSet α := l.foldl (fun t a => insert a t) s

theorem extend_nil (s : BTreeSet α) : s.extend [] = s := rfl

theorem extend_cons (s : BTreeSet α) (a : α) (l : List α) :
    s.extend (a :: l) = (insert a s).extend l := rfl

@[simp] theorem mem_extend {x : α} {s : BTreeSet α} {l : List α} :
    x ∈ s.extend l ↔ x ∈ s ∨ x ∈ l := by
  induction l generalizing s with
  | nil => simp [extend_nil]
  | cons a l ih =>
    rw [extend_cons, ih, mem_insert, List.mem_cons]
    tauto

/-- `collect::<BTreeSet<_>>()` -/
def ofList (l : List α) : BTreeSet α := (∅ : BTreeSet α).extend l

@[simp] theorem mem_ofList {x : α} {l : List α} : x ∈ ofList l ↔ x ∈ l := by
  unfold ofList
  rw [mem_extend]
  simp

instance : HasSubset (BTreeSet α) := ⟨fun s t => ∀ a, a ∈ s → a ∈ t⟩

instance (s t : BTreeSet α) : Decidable (s ⊆ t) :=
  decidable_of_iff (∀ a ∈ s.toList, a ∈ t) Iff.rfl

theorem pairwise_iff {s : BTreeSet α} {R : α → α → Prop} :
    s.toList.Pairwise R ↔ ∀ a ∈ s, ∀ b ∈ s, a < b → R a b := by
  constructor
  · intro h a ha b hb hab
    have hboth : s.toList.Pairwise fun x y => x < y ∧ R x y := s.sorted.and h
    obtain ⟨i, hi, rfl⟩ := List.getElem_of_mem ha
    obtain ⟨j, hj, rfl⟩ := List.getElem_of_mem hb
    rcases lt_trichotomy i j with hij | rfl | hij
    · exact (List.pairwise_iff_getElem.mp hboth i j hi hj hij).2
    · exact absurd hab (lt_irrefl _)
    · exact absurd hab (not_lt_of_gt (List.pairwise_iff_getElem.mp hboth j i hj hi hij).1)
  · intro h
    exact s.sorted.imp_of_mem fun {a b} ha hb hab => h a ha b hb hab

/-- the elements, as a set of the ambient type -/
def toSet (s : BTreeSet α) : Set α := {a | a ∈ s}

@[simp] theorem mem_toSet {a : α} {s : BTreeSet α} : a ∈ s.toSet ↔ a ∈ s := Iff.rfl

def toFinset (s : BTreeSet α) : Finset α := ⟨s.toList, s.nodup⟩

@[simp] theorem mem_toFinset {a : α} {s : BTreeSet α} : a ∈ s.toFinset ↔ a ∈ s := Iff.rfl

def card (s : BTreeSet α) : Nat := s.toList.length

theorem card_toFinset (s : BTreeSet α) : s.toFinset.card = s.card := rfl

end BTreeSet

/-! ## maps -/

/-- a finite map: its ordered keys and the lookup -/
structure BTreeMap (α β : Type*) [LinearOrder α] where
  keys : BTreeSet α
  get : α → Option β
  mem_keys : ∀ a, a ∈ keys ↔ (get a).isSome = true

namespace BTreeMap
variable {α β : Type*} [LinearOrder α]

theorem ext_get {m n : BTreeMap α β} (h : ∀ a, m.get a = n.get a) : m = n := by
  obtain ⟨k, g, hk⟩ := m
  obtain ⟨k', g', hk'⟩ := n
  obtain rfl : g = g' := funext h
  obtain rfl : k = k' := BTreeSet.ext_mem fun a => (hk a).trans (hk' a).symm
  rfl

theorem eq_iff_keys {m n : BTreeMap α β} :
    m = n ↔ m.keys = n.keys ∧ ∀ a ∈ m.keys.toList, m.get a = n.get a := by
  refine ⟨fun h => h ▸ ⟨rfl, fun _ _ => rfl⟩, fun ⟨hkeys, hget⟩ => ext_get fun a => ?_⟩
  by_cases ha : a ∈ m.keys
  · exact hget a ha
  · have hm : m.get a = none := Option.not_isSome_iff_eq_none.mp fun h => ha ((m.mem_keys a).mpr h)
    have hn : n.get a = none :=
      Option.not_isSome_iff_eq_none.mp fun h => ha (hkeys ▸ (n.mem_keys a).mpr h)
    rw [hm, hn]

instance [DecidableEq β] : DecidableEq (BTreeMap α β) :=
  fun _ _ => decidable_of_iff _ eq_iff_keys.symm

/-- the empty map -/
def empty : BTreeMap α β := ⟨∅, fun _ => none, fun a => by simp⟩

instance : EmptyCollection (BTreeMap α β) := ⟨empty⟩

@[simp] theorem get_empty (a : α) : (∅ : BTreeMap α β).get a = none := rfl

def insert (a : α) (b : β) (m : BTreeMap α β) : BTreeMap α β where
  keys := Insert.insert a m.keys
  get := fun x => if x = a then some b else m.get x
  mem_keys := by
    intro x
    rw [BTreeSet.mem_insert, m.mem_keys]
    by_cases h : x = a <;> simp [h]

theorem get_insert (a x : α) (b : β) (m : BTreeMap α β) :
    (m.insert a b).get x = if x = a then some b else m.get x := rfl

@[simp] theorem get_insert_self (a : α) (b : β) (m : BTreeMap α β) :
    (m.insert a b).get a = some b := by
  rw [get_insert, if_pos rfl]

theorem get_insert_of_ne {a x : α} (h : x ≠ a) (b : β) (m : BTreeMap α β) :
    (m.insert a b).get x = m.get x := by
  rw [get_insert, if_neg h]

def contains (a : α) (m : BTreeMap α β) : Bool := (m.get a).isSome

/-- the value at `a`, or the empty value -/
def getD (m : BTreeMap α β) [EmptyCollection β] (a : α) : β := (m.get a).getD ∅

/-- `entry(a).or_default()` followed by `f` on the value -/
def modify [EmptyCollection β] (a : α) (f : β → β) (m : BTreeMap α β) : BTreeMap α β :=
  m.insert a (f (m.getD a))

theorem get_modify [EmptyCollection β] (a x : α) (f : β → β) (m : BTreeMap α β) :
    (m.modify a f).get x = if x = a then some (f (m.getD a)) else m.get x := rfl

theorem getD_modify [EmptyCollection β] (a x : α) (f : β → β) (m : BTreeMap α β) :
    (m.modify a f).getD x = if x = a then f (m.getD a) else m.getD x := by
  unfold getD
  rw [get_modify]
  by_cases h : x = a
  · rw [if_pos h, if_pos h]; rfl
  · rw [if_neg h, if_neg h]

/-- `entry(a).or_insert(b)` -/
def insertIfAbsent (a : α) (b : β) (m : BTreeMap α β) : BTreeMap α β :=
  if m.contains a then m else m.insert a b

theorem get_insertIfAbsent (a x : α) (b : β) (m : BTreeMap α β) :
    (m.insertIfAbsent a b).get x = (m.get x).or (if x = a then some b else none) := by
  unfold insertIfAbsent contains
  cases ha : m.get a with
  | none =>
    show (m.insert a b).get x = _
    rw [get_insert]
    by_cases hx : x = a
    · rw [if_pos hx, if_pos hx, hx, ha]
      rfl
    · rw [if_neg hx, if_neg hx, Option.or_none]
  | some c =>
    show m.get x = _
    by_cases hx : x = a
    · rw [hx, ha]
      rfl
    · rw [if_neg hx, Option.or_none]

/-- `remove(a)`, the map that is left -/
def erase (a : α) (m : BTreeMap α β) : BTreeMap α β where
  keys := m.keys.erase a
  get := fun x => if x = a then none else m.get x
  mem_keys := fun x => by
    rw [BTreeSet.mem_erase, m.mem_keys]
    by_cases h : x = a <;> simp [h]

theorem get_erase (a x : α) (m : BTreeMap α β) :
    (m.erase a).get x = if x = a then none else m.get x := rfl

/-- `m.extend(n)`, where the values of `n` win -/
def extend (m n : BTreeMap α β) : BTreeMap α β where
  keys := m.keys.extend n.keys.toList
  get := fun x => (n.get x).or (m.get x)
  mem_keys := fun x => by
    rw [BTreeSet.mem_extend, BTreeSet.mem_toList, m.mem_keys, n.mem_keys, Option.isSome_or,
      Bool.or_eq_true, or_comm]

theorem get_extend (m n : BTreeMap α β) (x : α) : (m.extend n).get x = (n.get x).or (m.get x) := rfl

/-- the pairs of a list, the last one of each key -/
def ofList (l : List (α × β)) : BTreeMap α β := l.foldl (fun m p => m.insert p.1 p.2) ∅

theorem mem_of_get_foldl_insert {l : List (α × β)} {m : BTreeMap α β} {a : α} {b : β}
    (h : (l.foldl (fun m p => m.insert p.1 p.2) m).get a = some b) :
    (a, b) ∈ l ∨ m.get a = some b := by
  induction l generalizing m with
  | nil => exact Or.inr h
  | cons p l ih =>
    obtain h | h := ih h
    · exact Or.inl (List.mem_cons_of_mem _ h)
    · rw [get_insert] at h
      split_ifs at h with ha
      · obtain rfl := Option.some.inj h
        exact Or.inl (ha ▸ List.mem_cons_self)
      · exact Or.inr h

theorem mem_of_get_ofList {l : List (α × β)} {a : α} {b : β} (h : (ofList l).get a = some b) :
    (a, b) ∈ l := by
  obtain h | h := mem_of_get_foldl_insert h
  · exact h
  · cases h

theorem isSome_get_foldl_insert {l : List (α × β)} {m : BTreeMap α β} {a : α}
    (h : (∃ b, (a, b) ∈ l) ∨ (m.get a).isSome = true) :
    ((l.foldl (fun m p => m.insert p.1 p.2) m).get a).isSome = true := by
  induction l generalizing m with
  | nil =>
    obtain ⟨b, hb⟩ | h := h
    · cases hb
    · exact h
  | cons p l ih =>
    apply ih
    rw [get_insert]
    obtain ⟨b, hb⟩ | h := h
    · obtain rfl | hb := List.mem_cons.mp hb
      · right
        rw [if_pos rfl]
        rfl
      · exact Or.inl ⟨b, hb⟩
    · right
      split_ifs
      · rfl
      · exact h

theorem exists_get_ofList {l : List (α × β)} {a : α} {b : β} (h : (a, b) ∈ l) :
    ∃ c, (ofList l).get a = some c :=
  Option.isSome_iff_exists.mp (isSome_get_foldl_insert (Or.inl ⟨b, h⟩))

theorem get_foldl_insert_map {α' β' : Type*} [LinearOrder α'] {f : α → α'}
    (hf : Function.Injective f) (g : β → β') (l : List (α × β)) {m : BTreeMap α β}
    {m' : BTreeMap α' β'} (h : ∀ a, m'.get (f a) = (m.get a).map g) (a : α) :
    ((l.map fun p => (f p.1, g p.2)).foldl (fun m p => m.insert p.1 p.2) m').get (f a) =
      ((l.foldl (fun m p => m.insert p.1 p.2) m).get a).map g := by
  induction l generalizing m m' with
  | nil => exact h a
  | cons p l ih =>
    rw [List.map_cons, List.foldl_cons, List.foldl_cons]
    apply ih
    intro x
    rw [get_insert, get_insert, h]
    by_cases hx : x = p.1
    · rw [if_pos hx, if_pos (congrArg f hx), Option.map_some]
    · rw [if_neg hx, if_neg fun heq => hx (hf heq)]

theorem get_ofList_map {α' β' : Type*} [LinearOrder α'] {f : α → α'} (hf : Function.Injective f)
    (g : β → β') (l : List (α × β)) (a : α) :
    (ofList (l.map fun p => (f p.1, g p.2))).get (f a) = ((ofList l).get a).map g :=
  get_foldl_insert_map hf g l (fun _ => rfl) a

/-- every value replaced by its image -/
def mapValues {γ : Type*} (f : β → γ) (m : BTreeMap α β) : BTreeMap α γ where
  keys := m.keys
  get := fun a => (m.get a).map f
  mem_keys := fun a => by rw [Option.isSome_map, m.mem_keys]

@[simp] theorem get_mapValues {γ : Type*} (f : β → γ) (m : BTreeMap α β) (a : α) :
    (m.mapValues f).get a = (m.get a).map f := rfl

/-- every value replaced by one made from its key and itself -/
def mapEntries {γ : Type*} (f : α → β → γ) (m : BTreeMap α β) : BTreeMap α γ where
  keys := m.keys
  get := fun a => (m.get a).map (f a)
  mem_keys := fun a => by rw [Option.isSome_map, m.mem_keys]

@[simp] theorem get_mapEntries {γ : Type*} (f : α → β → γ) (m : BTreeMap α β) (a : α) :
    (m.mapEntries f).get a = (m.get a).map (f a) := rfl

/-- iteration in key order -/
def entries (m : BTreeMap α β) : List (α × β) :=
  m.keys.toList.filterMap fun a => (m.get a).map fun b => (a, b)

theorem mem_entries {m : BTreeMap α β} {a : α} {b : β} :
    (a, b) ∈ m.entries ↔ m.get a = some b := by
  unfold entries
  rw [List.mem_filterMap]
  constructor
  · rintro ⟨x, _, hx⟩
    obtain ⟨y, hy, hxy⟩ := Option.map_eq_some_iff.mp hx
    obtain ⟨rfl, rfl⟩ := Prod.mk.inj hxy
    exact hy
  · intro h
    exact ⟨a, (m.mem_keys a).mpr (by rw [h]; rfl), by rw [h]; rfl⟩

end BTreeMap
