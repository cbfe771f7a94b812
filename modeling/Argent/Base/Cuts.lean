import Mathlib.Logic.Relation
import Mathlib.Data.Set.Lattice
import Mathlib.Data.List.Nodup

/-!
# Cuts of a branching structure

A `Branching` is a set of positions, each with its set of kids; every position is a kid of at
most one other and lies one level below it.  A cut is a set of positions; a step of a cut opens a
position into its kids or packs the kids of a position into it.

* `Valid.openAt`, `Valid.packAt`   opening and packing keep a cut an antichain;
* `Valid.packAt_openAt`, `Valid.openAt_packAt`   and undo each other;
* `Derivable`                what can be obtained from a cut: below one of its members, or all
                             kids derivable;
* `reach_derivable`          every member of a reachable cut is derivable;
* `Derivable.below_or_packed`  a derivable position is below a member or packed out of members;
* `OpenRun`, `PackRun`       opening (packing) the positions of a list one after the other;
* `openRun_opened`, `packRun_packed`   a list sorted by depth runs through;
* `replay`                   **opens first, packs afterwards** reach a cut around a target.
-/

set_option linter.unusedSectionVars false

/-- positions with kids, levelled, each with at most one parent -/
structure Branching (P : Type*) where
  kids : P → Set P
  depth : P → ℕ
  depth_kid : ∀ {p c}, c ∈ kids p → depth c = depth p + 1
  parent_unique : ∀ {p q c}, c ∈ kids p → c ∈ kids q → p = q

namespace Branching
variable {P : Type*} (B : Branching P)

/-- reflexive ancestor relation -/
def Anc : P → P → Prop := Relation.ReflTransGen fun p c => c ∈ B.kids p

variable {B}

theorem Anc.refl (p : P) : B.Anc p p := Relation.ReflTransGen.refl

theorem Anc.trans {p q r : P} (h : B.Anc p q) (h' : B.Anc q r) : B.Anc p r :=
  Relation.ReflTransGen.trans h h'

theorem Anc.kid {p c : P} (h : c ∈ B.kids p) : B.Anc p c := Relation.ReflTransGen.single h

theorem Anc.head {p q : P} (h : B.Anc p q) : p = q ∨ ∃ c ∈ B.kids p, B.Anc c q := by
  rcases Relation.ReflTransGen.cases_head h with rfl | ⟨c, hc, hq⟩
  · exact Or.inl rfl
  · exact Or.inr ⟨c, hc, hq⟩

/-- the last step of a path down: an ancestor of a kid is the kid or an ancestor of its parent -/
theorem Anc.tail {p b c : P} (h : B.Anc p c) (hc : c ∈ B.kids b) : p = c ∨ B.Anc p b := by
  rcases Relation.ReflTransGen.cases_tail h with rfl | ⟨b', hp, hb'⟩
  · exact Or.inl rfl
  · obtain rfl : b' = b := B.parent_unique hb' hc
    exact Or.inr hp

theorem Anc.depth_le {p q : P} (h : B.Anc p q) : B.depth p ≤ B.depth q := by
  induction h with
  | refl => exact le_rfl
  | tail _ hc ih => rw [B.depth_kid hc]; omega

theorem Anc.eq_of_depth_le {p q : P} (h : B.Anc p q) (hd : B.depth q ≤ B.depth p) : p = q := by
  rcases h.head with rfl | ⟨c, hc, hq⟩
  · rfl
  · have h1 := hq.depth_le
    rw [B.depth_kid hc] at h1
    omega

theorem Anc.antisymm {p q : P} (h : B.Anc p q) (h' : B.Anc q p) : p = q :=
  h.eq_of_depth_le h'.depth_le

theorem Anc.total {p q r : P} (hp : B.Anc p r) (hq : B.Anc q r) : B.Anc p q ∨ B.Anc q p := by
  induction hp with
  | refl => exact Or.inr hq
  | tail hb hc ih =>
    rcases hq.tail hc with rfl | hq'
    · exact Or.inl (hb.tail hc)
    · exact ih hq'

/-! ## opening and packing -/

variable (B)

/-- a cut: no member lies below another -/
def Valid (s : Set P) : Prop := ∀ p ∈ s, ∀ q ∈ s, B.Anc p q → p = q

def openAt (s : Set P) (b : P) : Set P := (s \ {b}) ∪ B.kids b

def packAt (s : Set P) (b : P) : Set P := (s \ B.kids b) ∪ {b}

def CanOpen (s : Set P) (b : P) : Prop := b ∈ s ∧ (B.kids b).Nonempty

def CanPack (s : Set P) (b : P) : Prop := B.kids b ⊆ s ∧ (B.kids b).Nonempty

inductive Step (s : Set P) : Set P → Prop
  | openAt (b : P) : B.CanOpen s b → Step s (B.openAt s b)
  | packAt (b : P) : B.CanPack s b → Step s (B.packAt s b)

/-- cuts obtained by finitely many steps -/
def Reach : Set P → Set P → Prop := Relation.ReflTransGen B.Step

variable {B}

theorem Valid.openAt {s : Set P} (h : B.Valid s) {b : P} (hb : B.CanOpen s b) :
    B.Valid (B.openAt s b) := by
  rintro p (⟨hp, hpb⟩ | hp) q (⟨hq, hqb⟩ | hq) ha
  · exact h p hp q hq ha
  · rcases ha.tail hq with rfl | hab
    · rfl
    · exact absurd (h p hp b hb.1 hab) hpb
  · have hbq : b = q := h b hb.1 q hq ((Anc.kid hp).trans ha)
    exact absurd hbq.symm hqb
  · exact ha.eq_of_depth_le (by rw [B.depth_kid hp, B.depth_kid hq])

theorem Valid.packAt {s : Set P} (h : B.Valid s) {b : P} (hb : B.CanPack s b) :
    B.Valid (B.packAt s b) := by
  rintro p (⟨hp, hpb⟩ | rfl) q (⟨hq, hqb⟩ | rfl) ha
  · exact h p hp q hq ha
  · obtain ⟨c, hc⟩ := hb.2
    have hpc : p = c := h p hp c (hb.1 hc) (ha.trans (Anc.kid hc))
    exact absurd (hpc ▸ hc) hpb
  · rcases ha.head with rfl | ⟨c, hc, hcq⟩
    · rfl
    · have hcq' : c = q := h c (hb.1 hc) q hq hcq
      exact absurd (hcq' ▸ hc) hqb
  · rfl

theorem Valid.notMem_kid {s : Set P} (h : B.Valid s) {b c : P} (hb : b ∈ s)
    (hc : c ∈ B.kids b) : c ∉ s := by
  intro hcs
  have heq := h b hb c hcs (Anc.kid hc)
  have hdepth := B.depth_kid hc
  rw [← heq] at hdepth
  omega

/-- packing a position gives back the cut in which it was opened -/
theorem Valid.packAt_openAt {s : Set P} (h : B.Valid s) {b : P} (hb : B.CanOpen s b) :
    B.packAt (B.openAt s b) b = s := by
  ext p
  constructor
  · rintro (⟨⟨hp, _⟩ | hp, hkid⟩ | rfl)
    · exact hp
    · exact absurd hp hkid
    · exact hb.1
  · intro hp
    by_cases hpb : p = b
    · exact Or.inr hpb
    · exact Or.inl ⟨Or.inl ⟨hp, hpb⟩, fun hkid => h.notMem_kid hb.1 hkid hp⟩

/-- opening a position gives back the cut out of which it was packed -/
theorem Valid.openAt_packAt {s : Set P} (h : B.Valid s) {b : P} (hb : B.CanPack s b) :
    B.openAt (B.packAt s b) b = s := by
  obtain ⟨c, hc⟩ := hb.2
  ext p
  constructor
  · rintro (⟨⟨hp, _⟩ | hp, hpb⟩ | hkid)
    · exact hp
    · exact absurd hp hpb
    · exact hb.1 hkid
  · intro hp
    by_cases hkid : p ∈ B.kids b
    · exact Or.inr hkid
    · refine Or.inl ⟨Or.inl ⟨hp, hkid⟩, ?_⟩
      rintro rfl
      exact h.notMem_kid hp hc (hb.1 hc)

/-! ## derivable positions -/

variable (B)

/-- positions below a member of `s`, and positions whose kids are all derivable -/
inductive Derivable (s : Set P) : P → Prop
  | under {a p : P} : a ∈ s → B.Anc a p → Derivable s p
  | pack {p : P} : (B.kids p).Nonempty → (∀ c ∈ B.kids p, Derivable s c) → Derivable s p

/-- positions assembled out of members of `s` -/
inductive Packed (s : Set P) : P → Prop
  | here {p : P} : p ∈ s → Packed s p
  | pack {p : P} : (B.kids p).Nonempty → (∀ c ∈ B.kids p, Packed s c) → Packed s p

variable {B}

theorem Derivable.mono {s t : Set P} (hst : ∀ p ∈ s, B.Derivable t p) {p : P}
    (h : B.Derivable s p) : B.Derivable t p := by
  induction h with
  | @under a p ha hap =>
    -- going down from a derivable position stays derivable
    have down : ∀ {x}, B.Derivable t x → ∀ y ∈ B.kids x, B.Derivable t y := by
      intro x hx y hy
      cases hx with
      | under ha' hax => exact .under ha' (hax.trans (Anc.kid hy))
      | pack _ hk => exact hk y hy
    induction hap with
    | refl => exact hst a ha
    | tail _ hc ih => exact down ih _ hc
  | pack hne _ ih => exact .pack hne ih

theorem Step.derivable {s t : Set P} (h : B.Step s t) : ∀ p ∈ t, B.Derivable s p := by
  cases h with
  | openAt b hb =>
    rintro p (⟨hp, _⟩ | hp)
    · exact .under hp (Anc.refl p)
    · exact .under hb.1 (Anc.kid hp)
  | packAt b hb =>
    rintro p (⟨hp, _⟩ | rfl)
    · exact .under hp (Anc.refl p)
    · exact .pack hb.2 fun c hc => .under (hb.1 hc) (Anc.refl c)

/-- every member of a reachable cut is derivable from the first one -/
theorem reach_derivable {s t : Set P} (h : B.Reach s t) : ∀ p ∈ t, B.Derivable s p := by
  induction h with
  | refl => exact fun p hp => .under hp (Anc.refl p)
  | tail _ hst ih => exact fun p hp => (hst.derivable p hp).mono ih

theorem Derivable.below_or_packed {s : Set P} {p : P} (h : B.Derivable s p) :
    (∃ a ∈ s, B.Anc a p) ∨ B.Packed s p := by
  induction h with
  | under ha hap => exact Or.inl ⟨_, ha, hap⟩
  | @pack p hne _ ih =>
    by_cases hp : ∃ a ∈ s, B.Anc a p
    · exact Or.inl hp
    · refine Or.inr (.pack hne fun c hc => ?_)
      rcases ih c hc with ⟨a, ha, hac⟩ | hpk
      · rcases hac.tail hc with rfl | hap
        · exact .here ha
        · exact absurd ⟨a, ha, hap⟩ hp
      · exact hpk

theorem Packed.derivable {s : Set P} {p : P} (h : B.Packed s p) : B.Derivable s p := by
  induction h with
  | here hp => exact .under hp (Anc.refl _)
  | pack hne _ ih => exact .pack hne ih

theorem Packed.exists_below {s : Set P} {p : P} (h : B.Packed s p) : ∃ a ∈ s, B.Anc p a := by
  induction h with
  | here hp => exact ⟨_, hp, Anc.refl _⟩
  | pack hne _ ih =>
    obtain ⟨c, hc⟩ := hne
    obtain ⟨a, ha, hca⟩ := ih c hc
    exact ⟨a, ha, (Anc.kid hc).trans hca⟩

/-! ## runs -/

variable (B)

inductive OpenRun : Set P → List P → Set P → Prop
  | nil (s : Set P) : OpenRun s [] s
  | cons {s t : Set P} {b : P} {l : List P} :
      B.CanOpen s b → OpenRun (B.openAt s b) l t → OpenRun s (b :: l) t

inductive PackRun : Set P → List P → Set P → Prop
  | nil (s : Set P) : PackRun s [] s
  | cons {s t : Set P} {b : P} {l : List P} :
      B.CanPack s b → PackRun (B.packAt s b) l t → PackRun s (b :: l) t

/-- the cut after opening the positions of `l`, in any order in which this is possible -/
def opened (s : Set P) (l : List P) : Set P := {p | (p ∈ s ∨ ∃ b ∈ l, p ∈ B.kids b) ∧ p ∉ l}

/-- the cut after packing the positions of `l` -/
def packed (s : Set P) (l : List P) : Set P := {p | (p ∈ s ∨ p ∈ l) ∧ ∀ b ∈ l, p ∉ B.kids b}

variable {B}

theorem opened_nil (s : Set P) : B.opened s [] = s := by
  ext p
  simp [opened]

theorem packed_nil (s : Set P) : B.packed s [] = s := by
  ext p
  simp [packed]

/-- one more open, of a position at least as deep as all opened before -/
theorem openAt_opened {s : Set P} {l : List P} {b : P} (hd : ∀ x ∈ l, B.depth x ≤ B.depth b) :
    B.openAt (B.opened s l) b = B.opened s (l ++ [b]) := by
  have hkid : ∀ p ∈ B.kids b, p ∉ l ∧ p ≠ b := by
    intro p hp
    have h1 := B.depth_kid hp
    refine ⟨fun hpl => ?_, fun hpb => ?_⟩
    · have := hd p hpl; omega
    · rw [hpb] at h1; omega
  ext p
  simp only [openAt, opened, Set.mem_union, Set.mem_sdiff, Set.mem_ofPred_eq, Set.mem_singleton_iff,
    List.mem_append, List.mem_singleton]
  constructor
  · rintro (⟨⟨hs, hl⟩, hb⟩ | hp)
    · refine ⟨?_, by tauto⟩
      rcases hs with hs | ⟨x, hx, hpx⟩
      · exact Or.inl hs
      · exact Or.inr ⟨x, Or.inl hx, hpx⟩
    · have := hkid p hp
      exact ⟨Or.inr ⟨b, Or.inr rfl, hp⟩, by tauto⟩
  · rintro ⟨hs, hl⟩
    rcases hs with hs | ⟨x, hx | rfl, hpx⟩
    · exact Or.inl ⟨⟨Or.inl hs, by tauto⟩, by tauto⟩
    · exact Or.inl ⟨⟨Or.inr ⟨x, hx, hpx⟩, by tauto⟩, by tauto⟩
    · exact Or.inr hpx

/-- one more pack, of a position no deeper than all packed before -/
theorem packAt_packed {s : Set P} {l : List P} {b : P} (hd : ∀ x ∈ l, B.depth b ≤ B.depth x) :
    B.packAt (B.packed s l) b = B.packed s (l ++ [b]) := by
  have hkid : ∀ x ∈ l ++ [b], b ∉ B.kids x := by
    intro x hx hbx
    have h1 := B.depth_kid hbx
    rcases List.mem_append.mp hx with hx | hx
    · have := hd x hx; omega
    · rw [List.mem_singleton.mp hx] at h1; omega
  ext p
  simp only [packAt, packed, Set.mem_union, Set.mem_sdiff, Set.mem_ofPred_eq, Set.mem_singleton_iff,
    List.mem_append, List.mem_singleton]
  constructor
  · rintro (⟨⟨hs, hl⟩, hb⟩ | rfl)
    · refine ⟨by tauto, ?_⟩
      rintro x (hx | rfl)
      · exact hl x hx
      · exact hb
    · exact ⟨Or.inr (Or.inr rfl), fun x hx => hkid x (by simpa using hx)⟩
  · rintro ⟨hs, hl⟩
    have hl1 : ∀ x ∈ l, p ∉ B.kids x := fun x hx => hl x (Or.inl hx)
    have hl2 : p ∉ B.kids b := hl b (Or.inr rfl)
    rcases hs with hs | hs | rfl
    · exact Or.inl ⟨⟨Or.inl hs, hl1⟩, hl2⟩
    · exact Or.inl ⟨⟨Or.inr hs, hl1⟩, hl2⟩
    · exact Or.inr rfl

/-- **A list of openable positions sorted by depth runs through**, provided each of them is a
member of the cut or a kid of another position of the list. -/
theorem openRun_opened {s : Set P} {l : List P} (hnd : l.Nodup)
    (hsort : l.Pairwise fun x y => B.depth x ≤ B.depth y)
    (hl : ∀ b ∈ l, (B.kids b).Nonempty ∧ (b ∈ s ∨ ∃ x ∈ l, b ∈ B.kids x)) :
    B.OpenRun s l (B.opened s l) := by
  -- `l = done ++ rest`, the cut being `opened s done`
  suffices h : ∀ rest done, l = done ++ rest → B.OpenRun (B.opened s done) rest (B.opened s l) by
    have h0 := h l [] rfl
    rwa [opened_nil] at h0
  intro rest
  induction rest with
  | nil =>
    intro done hdone
    rw [List.append_nil] at hdone
    rw [hdone]
    exact .nil _
  | cons b rest ih =>
    intro done hdone
    have hb : b ∈ l := by rw [hdone]; simp
    rw [hdone] at hsort hnd
    have hbefore : ∀ x ∈ done, B.depth x ≤ B.depth b := fun x hx =>
      (List.pairwise_append.mp hsort).2.2 x hx b (by simp)
    have hafter : ∀ x ∈ rest, B.depth b ≤ B.depth x := fun x hx =>
      (List.pairwise_cons.mp (List.pairwise_append.mp hsort).2.1).1 x hx
    have hnotin : b ∉ done := fun hbd =>
      (List.nodup_append.mp hnd).2.2 b hbd b (by simp) rfl
    have hcan : B.CanOpen (B.opened s done) b := by
      obtain ⟨hne, hsrc⟩ := hl b hb
      refine ⟨⟨?_, hnotin⟩, hne⟩
      rcases hsrc with hsrc | ⟨x, hx, hbx⟩
      · exact Or.inl hsrc
      · -- the parent of `b` is less deep, so it was opened before
        have hdx := B.depth_kid hbx
        refine Or.inr ⟨x, ?_, hbx⟩
        rw [hdone] at hx
        rcases List.mem_append.mp hx with hx | hx
        · exact hx
        · rcases List.mem_cons.mp hx with rfl | hx
          · omega
          · have := hafter x hx; omega
    refine .cons hcan ?_
    rw [openAt_opened hbefore]
    exact ih (done ++ [b]) (by rw [hdone]; simp)

/-- **A list of packable positions sorted by decreasing depth runs through**, provided each kid
of each of them is a member of the cut or itself in the list. -/
theorem packRun_packed {s : Set P} {l : List P} (hnd : l.Nodup)
    (hsort : l.Pairwise fun x y => B.depth y ≤ B.depth x)
    (hl : ∀ b ∈ l, (B.kids b).Nonempty ∧ ∀ c ∈ B.kids b, c ∈ s ∨ c ∈ l) :
    B.PackRun s l (B.packed s l) := by
  suffices h : ∀ rest done, l = done ++ rest → B.PackRun (B.packed s done) rest (B.packed s l) by
    have h0 := h l [] rfl
    rwa [packed_nil] at h0
  intro rest
  induction rest with
  | nil =>
    intro done hdone
    rw [List.append_nil] at hdone
    rw [hdone]
    exact .nil _
  | cons b rest ih =>
    intro done hdone
    have hb : b ∈ l := by rw [hdone]; simp
    rw [hdone] at hsort hnd
    have hbefore : ∀ x ∈ done, B.depth b ≤ B.depth x := fun x hx =>
      (List.pairwise_append.mp hsort).2.2 x hx b (by simp)
    have hafter : ∀ x ∈ rest, B.depth x ≤ B.depth b := fun x hx =>
      (List.pairwise_cons.mp (List.pairwise_append.mp hsort).2.1).1 x hx
    have hnotin : b ∉ done := fun hbd =>
      (List.nodup_append.mp hnd).2.2 b hbd b (by simp) rfl
    have hcan : B.CanPack (B.packed s done) b := by
      obtain ⟨hne, hkids⟩ := hl b hb
      refine ⟨fun c hc => ⟨?_, ?_⟩, hne⟩
      · have hdc := B.depth_kid hc
        rcases hkids c hc with hcs | hcl
        · exact Or.inl hcs
        · -- the kid is deeper, so it was packed before
          rw [hdone] at hcl
          rcases List.mem_append.mp hcl with hcl | hcl
          · exact Or.inr hcl
          · rcases List.mem_cons.mp hcl with rfl | hcl
            · omega
            · have := hafter c hcl; omega
      · intro x hx hcx
        exact hnotin (B.parent_unique hcx hc ▸ hx)
    refine .cons hcan ?_
    rw [packAt_packed hbefore]
    exact ih (done ++ [b]) (by rw [hdone]; simp)

/-! ## the plan between two cuts -/

variable (B)

/-- positions strictly above a target member, down from a source member -/
def toOpen (s t : Set P) : Set P := {b | ∃ p ∈ t, ∃ a ∈ s, B.Anc a b ∧ B.Anc b p ∧ b ≠ p}

/-- packed positions under a target member that the source does not hold itself -/
def toPack (s t : Set P) : Set P := {b | b ∉ s ∧ B.Packed s b ∧ ∃ p ∈ t, B.Anc p b}

variable {B}

theorem toOpen_parent {s t : Set P} {b : P} (h : b ∈ B.toOpen s t) :
    (B.kids b).Nonempty ∧ (b ∈ s ∨ ∃ x ∈ B.toOpen s t, b ∈ B.kids x) := by
  obtain ⟨p, hp, a, ha, hab, hbp, hne⟩ := h
  constructor
  · rcases hbp.head with rfl | ⟨c, hc, _⟩
    · exact absurd rfl hne
    · exact ⟨c, hc⟩
  · rcases Relation.ReflTransGen.cases_tail hab with rfl | ⟨x, hax, hbx⟩
    · exact Or.inl ha
    · refine Or.inr ⟨x, ⟨p, hp, a, ha, hax, (Anc.kid hbx).trans hbp, ?_⟩, hbx⟩
      rintro rfl
      have h1 := hbp.depth_le
      have h2 := B.depth_kid hbx
      omega

theorem toPack_kids {s t : Set P} {b : P} (h : b ∈ B.toPack s t) :
    (B.kids b).Nonempty ∧ ∀ c ∈ B.kids b, c ∈ s ∨ c ∈ B.toPack s t := by
  obtain ⟨hbs, hpk, p, hp, hpb⟩ := h
  cases hpk with
  | here hb => exact absurd hb hbs
  | pack hne hk =>
    refine ⟨hne, fun c hc => ?_⟩
    by_cases hcs : c ∈ s
    · exact Or.inl hcs
    · exact Or.inr ⟨hcs, hk c hc, p, hp, hpb.trans (Anc.kid hc)⟩

/-- **Opens first, packs afterwards.**  From a cut `s` in which every member of the cut `t` is
derivable, opening the positions of `toOpen s t` parents first and then packing those of
`toPack s t` kids first runs through and ends in a cut around `t`. -/
theorem replay {s t : Set P} (ht : B.Valid t)
    (hd : ∀ p ∈ t, B.Derivable s p) (lo lk : List P) (hlo : ∀ b, b ∈ lo ↔ b ∈ B.toOpen s t)
    (hlk : ∀ b, b ∈ lk ↔ b ∈ B.toPack s t) (hno : lo.Nodup) (hnk : lk.Nodup)
    (hso : lo.Pairwise fun x y => B.depth x ≤ B.depth y)
    (hsk : lk.Pairwise fun x y => B.depth y ≤ B.depth x) :
    ∃ m r, B.OpenRun s lo m ∧ B.PackRun m lk r ∧ t ⊆ r := by
  have hopen : B.OpenRun s lo (B.opened s lo) := by
    refine openRun_opened hno hso fun b hb => ?_
    obtain ⟨hne, hsrc⟩ := toOpen_parent ((hlo b).mp hb)
    refine ⟨hne, hsrc.imp_right ?_⟩
    rintro ⟨x, hx, hbx⟩
    exact ⟨x, (hlo x).mpr hx, hbx⟩
  have hpack : B.PackRun (B.opened s lo) lk (B.packed (B.opened s lo) lk) := by
    refine packRun_packed hnk hsk fun b hb => ?_
    have hb' := (hlk b).mp hb
    obtain ⟨hne, hkids⟩ := toPack_kids hb'
    refine ⟨hne, fun c hc => ?_⟩
    rcases hkids c hc with hcs | hck
    · refine Or.inl ⟨Or.inl hcs, fun hco => ?_⟩
      -- an opened kid would put two comparable members into the target
      obtain ⟨p, hp, a, ha, hac, hcp, hne'⟩ := (hlo c).mp hco
      obtain ⟨_, _, p', hp', hpb⟩ := hb'
      have hcp' : B.Anc p' c := hpb.trans (Anc.kid hc)
      have e : p' = p := ht p' hp' p hp (hcp'.trans hcp)
      have hpc : p = c := (hcp.antisymm (e ▸ hcp')).symm
      exact hne' hpc.symm
    · exact Or.inr ((hlk c).mpr hck)
  refine ⟨_, _, hopen, hpack, fun p hp => ?_⟩
  have hnotlo : p ∉ lo := by
    intro hpo
    obtain ⟨p', hp', a, ha, _, hpp', hne⟩ := (hlo p).mp hpo
    exact hne (ht p hp p' hp' hpp')
  have hnotkid : ∀ b ∈ lk, p ∉ B.kids b := by
    intro b hb hpb
    obtain ⟨_, _, p', hp', hpb'⟩ := (hlk b).mp hb
    have e : p' = p := ht p' hp' p hp (hpb'.trans (Anc.kid hpb))
    have h1 := hpb'.depth_le
    have h2 := B.depth_kid hpb
    rw [e] at h1
    omega
  refine ⟨?_, hnotkid⟩
  rcases (hd p hp).below_or_packed with ⟨a, ha, hap⟩ | hpk
  · refine Or.inl ⟨?_, hnotlo⟩
    rcases Relation.ReflTransGen.cases_tail hap with rfl | ⟨x, hax, hpx⟩
    · exact Or.inl ha
    · have hx : x ≠ p := by
        rintro rfl
        have := B.depth_kid hpx
        omega
      exact Or.inr ⟨x, (hlo x).mpr ⟨p, hp, a, ha, hax, Anc.kid hpx, hx⟩, hpx⟩
  · by_cases hps : p ∈ s
    · exact Or.inl ⟨Or.inl hps, hnotlo⟩
    · exact Or.inr ((hlk p).mpr ⟨hps, hpk, p, hp, Anc.refl p⟩)

end Branching
