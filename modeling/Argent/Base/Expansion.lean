import Mathlib.Data.Fintype.EquivFin
import Mathlib.Data.List.Flatten
import Mathlib.Logic.Relation
import Mathlib.Order.WellFounded
import Mathlib.Data.Finite.Defs
import Mathlib.Order.WellFoundedSet

/-!
# Items that expand

An item has a width of its own, or stands for a node whose members are items again.  Nodes may be
shared and may be recursive.

* `Expansion.Leaves`          the widths that an item is made of, from left to right;
* `Leaves.unique`             an item has one list of leaves, and shared nodes have the same one;
* `Leaves.not_recursive`      nothing recursive has leaves;
* `Expansion.leaves_of_finite`      **among finitely many nodes an item has leaves, or reaches a node that
  reaches itself, or an item without a width**.
-/

set_option linter.unusedSectionVars false

namespace Argent

structure Expansion (α τ : Type) where
  width : α → Option Nat
  /-- the node that an item without a width stands for -/
  target : α → Option τ
  members : τ → List α

namespace Expansion
variable {α τ : Type} {g : Expansion α τ} {a b : α} {s t : τ} {as : List α} {ls ns : List Nat}

/-- an item stands for a node -/
def Expands (g : Expansion α τ) (a : α) (t : τ) : Prop := g.width a = none ∧ g.target a = some t

/-- an item has no width and stands for no node -/
def Stuck (g : Expansion α τ) (a : α) : Prop := g.width a = none ∧ g.target a = none

/-- a member of one node stands for another -/
def Holds (g : Expansion α τ) (s t : τ) : Prop := ∃ a ∈ g.members s, g.Expands a t

/-- the nodes below an item -/
def Reaches (g : Expansion α τ) (a : α) (t : τ) : Prop :=
  ∃ s, g.Expands a s ∧ Relation.ReflTransGen g.Holds s t

/-- a node below an item reaches itself -/
def Recursive (g : Expansion α τ) (a : α) : Prop :=
  ∃ t, g.Reaches a t ∧ Relation.TransGen g.Holds t t

/-- the item, or a member of a node below it, has no width and stands for no node -/
def Unfixed (g : Expansion α τ) (a : α) : Prop :=
  g.Stuck a ∨ ∃ t, g.Reaches a t ∧ ∃ b ∈ g.members t, g.Stuck b

/-- the widths that items are made of -/
inductive Leaves (g : Expansion α τ) : List α → List Nat → Prop
  | nil : Leaves g [] []
  | leaf {a : α} {n : Nat} {as : List α} {ns : List Nat} (width : g.width a = some n)
    (rest : Leaves g as ns) : Leaves g (a :: as) (n :: ns)
  | expand {a : α} {t : τ} {as : List α} {ls ns : List Nat} (expands : g.Expands a t)
    (inner : Leaves g (g.members t) ls) (rest : Leaves g as ns) : Leaves g (a :: as) (ls ++ ns)

theorem width_or_target (g : Expansion α τ) (a : α) :
    (∃ n, g.width a = some n) ∨ g.Stuck a ∨ ∃ t, g.Expands a t := by
  cases hwidth : g.width a with
  | some n => exact .inl ⟨n, rfl⟩
  | none =>
    cases htarget : g.target a with
    | none => exact .inr (.inl ⟨hwidth, htarget⟩)
    | some t => exact .inr (.inr ⟨t, hwidth, htarget⟩)

/-! ## leaves are unique -/

theorem Expands.unique (h : g.Expands a s) (h' : g.Expands a t) : s = t :=
  Option.some_inj.mp (h.2.symm.trans h'.2)

theorem Leaves.unique (h : g.Leaves as ls) (h' : g.Leaves as ns) : ls = ns := by
  induction h generalizing ns with
  | nil =>
    cases h'
    rfl
  | leaf width rest ih =>
    cases h' with
    | leaf width' rest' =>
      rw [width, Option.some_inj] at width'
      rw [width', ih rest']
    | expand expands _ _ =>
      rw [expands.1] at width
      cases width
  | expand expands inner rest ihInner ihRest =>
    cases h' with
    | leaf width' _ =>
      rw [expands.1] at width'
      cases width'
    | expand expands' inner' rest' =>
      cases expands.unique expands'
      rw [ihInner inner', ihRest rest']

theorem Leaves.of_expands (h : g.Expands a t) : g.Leaves [a] ls ↔ g.Leaves (g.members t) ls := by
  constructor
  · intro hleaves
    cases hleaves with
    | leaf width _ =>
      rw [h.1] at width
      cases width
    | expand expands inner rest =>
      cases rest
      cases h.unique expands
      rwa [List.append_nil]
  · intro hleaves
    have hcons := Leaves.expand h hleaves Leaves.nil
    rwa [List.append_nil] at hcons

theorem Leaves.cons (ha : g.Leaves [a] ls) (hrest : g.Leaves as ns) : g.Leaves (a :: as) (ls ++ ns) := by
  cases ha with
  | leaf width rest =>
    cases rest
    exact .leaf width hrest
  | expand expands inner rest =>
    cases rest
    rw [List.append_nil]
    exact .expand expands inner hrest

theorem Leaves.uncons (h : g.Leaves (a :: as) ls) :
    ∃ first rest, ls = first ++ rest ∧ g.Leaves [a] first ∧ g.Leaves as rest := by
  cases h with
  | leaf width rest => exact ⟨[_], _, rfl, .leaf width .nil, rest⟩
  | expand expands inner rest => exact ⟨_, _, rfl, (of_expands expands).mpr inner, rest⟩

theorem leaves_of_forall (h : ∀ a ∈ as, ∃ ls, g.Leaves [a] ls) : ∃ ls, g.Leaves as ls := by
  induction as with
  | nil => exact ⟨[], .nil⟩
  | cons a as ih =>
    obtain ⟨ls, hls⟩ := h a List.mem_cons_self
    obtain ⟨ns, hns⟩ := ih fun b hb => h b (List.mem_cons_of_mem _ hb)
    exact ⟨ls ++ ns, hls.cons hns⟩

theorem Leaves.of_mem (h : g.Leaves as ls) (ha : a ∈ as) : ∃ ns, g.Leaves [a] ns := by
  induction as generalizing ls with
  | nil => cases ha
  | cons b as ih =>
    obtain ⟨first, rest, -, hfirst, hrest⟩ := h.uncons
    obtain rfl | ha := List.mem_cons.mp ha
    · exact ⟨first, hfirst⟩
    · exact ih hrest ha

/-! ## what has no leaves -/

theorem Leaves.acc (h : g.Leaves as ls) : ∀ a ∈ as, ∀ t, g.Expands a t →
    Acc (fun s t => g.Holds t s) t := by
  induction h with
  | nil =>
    intro a ha
    cases ha
  | leaf width rest ih =>
    intro b hb t ht
    obtain rfl | hb := List.mem_cons.mp hb
    · rw [ht.1] at width
      cases width
    · exact ih b hb t ht
  | expand expands inner rest ihInner ihRest =>
    intro b hb t ht
    obtain rfl | hb := List.mem_cons.mp hb
    · cases ht.unique expands
      refine ⟨_, fun s hs => ?_⟩
      obtain ⟨c, hc, hexpands⟩ := hs
      exact ihInner c hc s hexpands
    · exact ihRest b hb t ht

theorem acc_of_holds (h : Acc (fun s t => g.Holds t s) s) (hreach : Relation.ReflTransGen g.Holds s t) :
    Acc (fun s t => g.Holds t s) t := by
  induction hreach with
  | refl => exact h
  | tail _ hlast ih => exact ih.inv hlast

theorem not_transGen_of_acc (h : Acc (fun s t => g.Holds t s) t) : ¬ Relation.TransGen g.Holds t t := by
  induction h with
  | intro t _ ih =>
    intro hcycle
    obtain ⟨s, hfirst, hrest⟩ := Relation.TransGen.head'_iff.mp hcycle
    exact ih s hfirst (Relation.TransGen.tail'_iff.mpr ⟨t, hrest, hfirst⟩)

theorem Leaves.not_recursive (h : g.Leaves [a] ls) : ¬ g.Recursive a := by
  rintro ⟨t, ⟨s, hexpands, hreach⟩, hcycle⟩
  have hacc := h.acc a List.mem_cons_self s hexpands
  exact not_transGen_of_acc (acc_of_holds hacc hreach) hcycle

theorem Leaves.not_stuck (h : g.Leaves [a] ls) : ¬ g.Stuck a := by
  intro hstuck
  cases h with
  | leaf width _ =>
    rw [hstuck.1] at width
    cases width
  | expand expands _ _ =>
    have htarget := expands.2
    rw [hstuck.2] at htarget
    cases htarget

theorem Leaves.members (h : g.Leaves (g.members s) ls) (hreach : Relation.ReflTransGen g.Holds s t) :
    ∃ ns, g.Leaves (g.members t) ns := by
  induction hreach with
  | refl => exact ⟨ls, h⟩
  | tail _ hlast ih =>
    obtain ⟨ns, hns⟩ := ih
    obtain ⟨b, hb, hexpands⟩ := hlast
    obtain ⟨ms, hms⟩ := hns.of_mem hb
    exact ⟨ms, (of_expands hexpands).mp hms⟩

theorem Leaves.not_unfixed (h : g.Leaves [a] ls) : ¬ g.Unfixed a := by
  rintro (hstuck | ⟨t, ⟨s, hexpands, hreach⟩, b, hb, hstuck⟩)
  · exact h.not_stuck hstuck
  · obtain ⟨ns, hns⟩ := ((of_expands hexpands).mp h).members hreach
    obtain ⟨ms, hms⟩ := hns.of_mem hb
    exact hms.not_stuck hstuck

/-! ## what has leaves -/

theorem Reaches.step (h : g.Reaches a s) (hb : b ∈ g.members s) (hexpands : g.Expands b t) :
    g.Reaches a t := by
  obtain ⟨r, hr, hreach⟩ := h
  exact ⟨r, hr, hreach.tail ⟨b, hb, hexpands⟩⟩

/-- **Among finitely many nodes, an item that reaches neither a node that reaches itself nor an item
without a width has leaves.** -/
theorem leaves_of_finite (hfinite : {t | ∃ a, g.Expands a t}.Finite) (hrec : ¬ g.Recursive a)
    (hfixed : ¬ g.Unfixed a) : ∃ ls, g.Leaves [a] ls := by
  have hsub : {t | g.Reaches a t} ⊆ {t | ∃ a, g.Expands a t} := by
    rintro t ⟨s, hs, hreach⟩
    cases hreach with
    | refl => exact ⟨a, hs⟩
    | tail _ hlast =>
      obtain ⟨b, _, hb⟩ := hlast
      exact ⟨b, hb⟩
  have hnodes : ∀ t : {t // g.Reaches a t}, ∃ ls, g.Leaves (g.members t.val) ls := by
    have : Finite {t // g.Reaches a t} := (hfinite.subset hsub).to_subtype
    let below : {t // g.Reaches a t} → {t // g.Reaches a t} → Prop :=
      fun s t => Relation.TransGen g.Holds t.val s.val
    have : IsTrans _ below := ⟨fun _ _ _ hrs hst => hst.trans hrs⟩
    have : Std.Irrefl below := ⟨fun t hcycle => hrec ⟨t.val, t.property, hcycle⟩⟩
    intro t
    -- the nodes below an item are finitely many and not cyclic
    induction t using (Finite.wellFounded_of_trans_of_irrefl below).induction with
    | _ t ih =>
      refine leaves_of_forall fun b hb => ?_
      obtain ⟨n, hwidth⟩ | hstuck | ⟨s, hexpands⟩ := g.width_or_target b
      · exact ⟨[n], .leaf hwidth .nil⟩
      · exact absurd (.inr ⟨t.val, t.property, b, hb, hstuck⟩) hfixed
      · obtain ⟨ls, hls⟩ := ih ⟨s, t.property.step hb hexpands⟩ (.single ⟨b, hb, hexpands⟩)
        exact ⟨ls, (Leaves.of_expands hexpands).mpr hls⟩
  obtain ⟨n, hwidth⟩ | hstuck | ⟨s, hexpands⟩ := g.width_or_target a
  · exact ⟨[n], .leaf hwidth .nil⟩
  · exact absurd (.inl hstuck) hfixed
  · obtain ⟨ls, hls⟩ := hnodes ⟨s, s, hexpands, .refl⟩
    exact ⟨ls, (Leaves.of_expands hexpands).mpr hls⟩

end Expansion

end Argent
