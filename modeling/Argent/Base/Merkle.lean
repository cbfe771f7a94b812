import Mathlib.Data.List.Basic
import Mathlib.Tactic.Common

/-!
# Merkle trees of any width

A tree over a non-empty list of leaves, layer by layer: neighbours are joined by `parent`, and an
odd last node is joined with itself.  The path of a leaf lists the siblings met on the way up.

* `Merkle.layers`, `Merkle.root`, `Merkle.path`      the tree, its root and the path of a position;
* `Merkle.replay_path`      **replaying the path of a leaf gives the root**;
* `Merkle.root_inj`         without a collision of `parent`, the root determines the leaves.
-/

set_option linter.unusedSectionVars false

namespace Merkle
variable {α : Type*} (parent : α → α → α)

/-- the layer above -/
def pairUp : List α → List α
  | [] => []
  | [a] => [parent a a]
  | a :: b :: rest => parent a b :: pairUp rest

theorem length_pairUp (l : List α) : (pairUp parent l).length = (l.length + 1) / 2 := by
  induction l using pairUp.induct with
  | case1 => simp [pairUp]
  | case2 a => simp [pairUp]
  | case3 a b rest ih =>
    show (pairUp parent rest).length + 1 = (rest.length + 1 + 1 + 1) / 2
    rw [ih]
    omega

def layersWithin : Nat → List α → List (List α)
  | 0, l => [l]
  | fuel + 1, l => if 1 < l.length then l :: layersWithin fuel (pairUp parent l) else [l]

/-- the layers from `l` to the root; each is shorter than the one below -/
def layers (l : List α) : List (List α) := layersWithin parent l.length l

theorem layersWithin_of_le {l : List α} {fuel : Nat} (h : l.length ≤ fuel) :
    layersWithin parent fuel l = layers parent l := by
  suffices hgen : ∀ fuel fuel' (l : List α), l.length ≤ fuel → l.length ≤ fuel' →
      layersWithin parent fuel l = layersWithin parent fuel' l from hgen _ _ l h (Nat.le_refl _)
  intro fuel
  induction fuel with
  | zero =>
    intro fuel' l hl _
    have hlt : ¬ 1 < l.length := by omega
    cases fuel' with
    | zero => rfl
    | succ fuel' => rw [layersWithin, layersWithin, if_neg hlt]
  | succ fuel ih =>
    intro fuel' l hl hl'
    by_cases hlt : 1 < l.length
    · obtain ⟨fuel', rfl⟩ := Nat.exists_eq_add_one.mpr (show 0 < fuel' by omega)
      have hup := length_pairUp parent l
      rw [layersWithin, layersWithin, if_pos hlt, if_pos hlt,
        ih fuel' _ (by omega) (by omega)]
    · cases fuel' with
      | zero => rw [layersWithin, layersWithin, if_neg hlt]
      | succ fuel' => rw [layersWithin, layersWithin, if_neg hlt, if_neg hlt]

theorem layers_of_lt {l : List α} (h : 1 < l.length) :
    layers parent l = l :: layers parent (pairUp parent l) := by
  obtain ⟨fuel, hfuel⟩ := Nat.exists_eq_add_one.mpr (show 0 < l.length by omega)
  have hup := length_pairUp parent l
  unfold layers
  rw [hfuel, layersWithin, if_pos h, layersWithin_of_le parent (by omega)]
  rfl

theorem layers_of_le {l : List α} (h : ¬ 1 < l.length) : layers parent l = [l] := by
  unfold layers
  cases l.length with
  | zero => rfl
  | succ fuel => rw [layersWithin, if_neg h]

theorem layers_ne_nil (l : List α) : layers parent l ≠ [] := by
  by_cases h : 1 < l.length
  · rw [layers_of_lt parent h]
    exact List.cons_ne_nil _ _
  · rw [layers_of_le parent h]
    exact List.cons_ne_nil _ _

/-- the first node of the last layer -/
def root (layers : List (List α)) : Option α := layers.getLast?.bind List.head?

theorem root_cons {l : List α} {rest : List (List α)} (h : rest ≠ []) :
    root (l :: rest) = root rest := by
  unfold root
  rw [List.getLast?_cons_of_ne_nil h]

/-! ## paths -/

/-- the side on which the sibling stands -/
inductive Side where
  | left
  | right
deriving DecidableEq, Repr

structure Step (α : Type*) where
  side : Side
  sibling : α

/-- the sibling of a left child is its right neighbour, or itself at the end of the layer -/
def siblingIndex (width index : Nat) : Nat :=
  if index % 2 = 0 then min (index + 1) (width - 1) else index - 1

theorem siblingIndex_lt {width index : Nat} (h : index < width) : siblingIndex width index < width := by
  unfold siblingIndex
  split_ifs <;> omega

def step [Inhabited α] (layer : List α) (index : Nat) : Step α where
  side := if index % 2 = 0 then .right else .left
  sibling := layer.getD (siblingIndex layer.length index) default

/-- the siblings of a position in each of the given layers, from the bottom up -/
def climb [Inhabited α] : List (List α) → Nat → List (Step α)
  | [], _ => []
  | layer :: rest, index => step layer index :: climb rest (index / 2)

/-- the path of a position: its siblings in every layer but the last -/
def path [Inhabited α] (layers : List (List α)) (index : Nat) : List (Step α) :=
  climb layers.dropLast index

/-- the node above a node and its sibling -/
def join (node : α) (step : Step α) : α :=
  match step.side with
  | .left => parent step.sibling node
  | .right => parent node step.sibling

def replay (leaf : α) (steps : List (Step α)) : α := steps.foldl (join parent) leaf

/-- joining a node with its sibling gives its parent in the layer above -/
theorem join_step [Inhabited α] {l : List α} {index : Nat} (h : index < l.length) :
    join parent (l.getD index default) (step l index) =
      (pairUp parent l).getD (index / 2) default := by
  induction l using pairUp.induct generalizing index with
  | case1 => exact absurd h (Nat.not_lt_zero index)
  | case2 a =>
    have h0 : index = 0 := Nat.lt_one_iff.mp h
    subst h0
    rfl
  | case3 a b rest ih =>
    match index with
    | 0 => rfl
    | 1 => rfl
    | index + 2 =>
      have hrest : index < rest.length := by
        rw [List.length_cons, List.length_cons] at h
        omega
      have hhalf : (index + 2) / 2 = index / 2 + 1 := by omega
      have hstep : step (a :: b :: rest) (index + 2) = step rest index := by
        unfold step siblingIndex
        rw [List.length_cons, List.length_cons, Nat.add_mod_right]
        by_cases heven : index % 2 = 0
        · have hs : min (index + 2 + 1) (rest.length + 1 + 1 - 1) =
              min (index + 1) (rest.length - 1) + 1 + 1 := by omega
          rw [if_pos heven, if_pos heven, if_pos heven, hs, List.getD_cons_succ,
            List.getD_cons_succ]
        · have hs : index + 2 - 1 = index - 1 + 1 + 1 := by omega
          rw [if_neg heven, if_neg heven, if_neg heven, hs, List.getD_cons_succ,
            List.getD_cons_succ]
      rw [hstep, hhalf, List.getD_cons_succ, List.getD_cons_succ, ih hrest]
      exact (List.getD_cons_succ ..).symm

/-- the root of the tree is reached from every position -/
theorem replay_path [Inhabited α] (l : List α) {index : Nat} (h : index < l.length) :
    root (layers parent l) =
      some (replay parent (l.getD index default) (path (layers parent l) index)) := by
  induction hn : l.length using Nat.strongRecOn generalizing l index with
  | _ n ih =>
    subst hn
    by_cases hl : 1 < l.length
    · have hne := layers_ne_nil parent (pairUp parent l)
      have hup := length_pairUp parent l
      have hindex : index / 2 < (pairUp parent l).length := by omega
      rw [layers_of_lt parent hl, root_cons hne, ih _ (by omega) _ hindex rfl]
      unfold path replay
      rw [List.dropLast_cons_of_ne_nil hne, climb, List.foldl_cons, join_step parent h]
    · obtain ⟨a, rfl⟩ := List.length_eq_one_iff.mp (show l.length = 1 by omega)
      have h0 : index = 0 := Nat.lt_one_iff.mp h
      subst h0
      rw [layers_of_le parent hl]
      rfl

/-! ## binding -/

/-- the pairs that one layer joins -/
def pairs : List α → List (α × α)
  | [] => []
  | [a] => [(a, a)]
  | a :: b :: rest => (a, b) :: pairs rest

/-- the pairs joined anywhere in the tree over `l` -/
def joined (l : List α) : List (α × α) := (layers parent l).dropLast.flatMap pairs

theorem joined_of_lt {l : List α} (h : 1 < l.length) :
    joined parent l = pairs l ++ joined parent (pairUp parent l) := by
  unfold joined
  rw [layers_of_lt parent h, List.dropLast_cons_of_ne_nil (layers_ne_nil parent _),
    List.flatMap_cons]

/-- no pair of the first list is joined to the same node as another pair of the second -/
def CollisionFree (s t : List (α × α)) : Prop :=
  ∀ p ∈ s, ∀ q ∈ t, parent p.1 p.2 = parent q.1 q.2 → p = q

variable {parent}

theorem CollisionFree.mono {s s' t t' : List (α × α)} (h : CollisionFree parent s t)
    (hs : ∀ p ∈ s', p ∈ s) (ht : ∀ q ∈ t', q ∈ t) : CollisionFree parent s' t' :=
  fun p hp q hq => h p (hs p hp) q (ht q hq)

/-- without a collision, the layer above determines a layer of known length -/
theorem pairUp_inj {l m : List α} (hlen : l.length = m.length)
    (hfree : CollisionFree parent (pairs l) (pairs m)) (h : pairUp parent l = pairUp parent m) :
    l = m := by
  induction l using pairUp.induct generalizing m with
  | case1 => exact (List.length_eq_zero_iff.mp hlen.symm).symm
  | case2 a =>
    obtain ⟨b, rfl⟩ := List.length_eq_one_iff.mp hlen.symm
    have hnode : parent a a = parent b b := (List.cons.inj h).1
    have hpair := hfree (a, a) List.mem_cons_self (b, b) List.mem_cons_self hnode
    rw [(Prod.mk.inj hpair).1]
  | case3 a b rest ih =>
    match m with
    | [] => exact absurd hlen (Nat.succ_ne_zero _)
    | [c] => exact absurd (Nat.succ.inj hlen) (Nat.succ_ne_zero _)
    | c :: d :: rest' =>
      obtain ⟨hnode, hrest⟩ := List.cons.inj h
      have hpair := hfree (a, b) List.mem_cons_self (c, d) List.mem_cons_self hnode
      obtain ⟨rfl, rfl⟩ := Prod.mk.inj hpair
      have hfree' := hfree.mono (fun p => List.mem_cons_of_mem (a, b))
        (fun q => List.mem_cons_of_mem (a, b))
      rw [ih (Nat.succ.inj (Nat.succ.inj hlen)) hfree' hrest]

/-- **Without a collision in the two trees, the root determines the leaves.** -/
theorem root_inj {l m : List α} (hlen : l.length = m.length)
    (hfree : CollisionFree parent (joined parent l) (joined parent m))
    (h : root (layers parent l) = root (layers parent m)) : l = m := by
  induction hn : l.length using Nat.strongRecOn generalizing l m with
  | _ n ih =>
    subst hn
    by_cases hl : 1 < l.length
    · have hm : 1 < m.length := hlen ▸ hl
      have hup := length_pairUp parent l
      have hup' := length_pairUp parent m
      rw [joined_of_lt parent hl, joined_of_lt parent hm] at hfree
      rw [layers_of_lt parent hl, layers_of_lt parent hm, root_cons (layers_ne_nil parent _),
        root_cons (layers_ne_nil parent _)] at h
      have hfree' := hfree.mono (fun p => List.mem_append_right (pairs l))
        (fun q => List.mem_append_right (pairs m))
      have habove := ih _ (by omega) (by omega) hfree' h rfl
      exact pairUp_inj hlen (hfree.mono (fun p => List.mem_append_left _)
        (fun q => List.mem_append_left _)) habove
    · have hm : ¬ 1 < m.length := hlen ▸ hl
      rw [layers_of_le parent hl, layers_of_le parent hm] at h
      have hhead : l.head? = m.head? := h
      match l, m with
      | [], m => exact (List.length_eq_zero_iff.mp hlen.symm).symm
      | [a], m =>
        obtain ⟨b, rfl⟩ := List.length_eq_one_iff.mp hlen.symm
        rw [Option.some.inj hhead]
      | a :: b :: rest, m => exact absurd (Nat.one_lt_succ_succ rest.length) hl

end Merkle
