import Mathlib.Data.Finset.Basic
import Mathlib.Order.WellFounded
import Mathlib.Data.Fintype.Order

/-!
# Chains of steps that may stop

A partial step `next : α → Option α` is followed from `a` until it gives nothing.

* `stops`            the chain ends within so many steps;
* `stops_iff_acc`      the chain ends when its start is accessible;
* `stops_forall_iff`      **when the steps lead into a finite set, every chain ends if and only if
                     none leads back to itself**.
-/

set_option linter.unusedSectionVars false

namespace Argent.Chain
variable {α : Type*} (next : α → Option α)

/-- one step of a chain -/
def Leads (a b : α) : Prop := next a = some b

/-- the chain from `a` ends before `fuel` steps are made -/
def stops : Nat → α → Bool
  | 0, _ => false
  | fuel + 1, a =>
    match next a with
    | none => true
    | some b => stops fuel b

theorem stops_succ_of_none {a : α} (h : next a = none) (fuel : Nat) :
    stops next (fuel + 1) a = true := by
  simp only [stops, h]

theorem stops_succ_of_some {a b : α} (h : next a = some b) (fuel : Nat) :
    stops next (fuel + 1) a = stops next fuel b := by
  simp only [stops, h]

/-- a chain that ends is a chain without an infinite descent -/
theorem stops_iff_acc {a : α} :
    (∃ fuel, stops next fuel a = true) ↔ Acc (fun b a => Leads next a b) a := by
  constructor
  · rintro ⟨fuel, h⟩
    induction fuel generalizing a with
    | zero => cases h
    | succ fuel ih =>
      refine Acc.intro a fun b hb => ih ?_
      rwa [stops_succ_of_some next hb] at h
  · intro h
    induction h with
    | intro a _ ih =>
      cases hnext : next a with
      | none => exact ⟨1, stops_succ_of_none next hnext 0⟩
      | some b =>
        obtain ⟨fuel, hfuel⟩ := ih b hnext
        exact ⟨fuel + 1, (stops_succ_of_some next hnext fuel).trans hfuel⟩

/-- what lies on a cycle is not accessible -/
theorem not_acc_of_transGen {r : α → α → Prop} {a : α} (h : Relation.TransGen r a a) :
    ¬ Acc r a := by
  intro hacc
  have htrans : Acc (Relation.TransGen r) a := hacc.transGen
  induction htrans with
  | intro a _ ih => exact ih a h h hacc

/-- the start of a chain that leads back to itself is not accessible -/
theorem not_acc_of_cycle {a : α} (h : Relation.TransGen (Leads next) a a) :
    ¬ Acc (fun b a => Leads next a b) a :=
  not_acc_of_transGen (Relation.transGen_swap.mp h)

/-- without cycles, a chain in a finite set ends -/
theorem acc_of_acyclic (s : Finset α) (hs : ∀ a b, Leads next a b → b ∈ s)
    (h : ∀ a, ¬ Relation.TransGen (Leads next) a a) (a : α) :
    Acc (fun b a => Leads next a b) a := by
  let above : s → s → Prop := fun b a => Relation.TransGen (Leads next) a.1 b.1
  have htrans : IsTrans s above := ⟨fun _ _ _ hab hbc => hbc.trans hab⟩
  have hirrefl : Std.Irrefl above := ⟨fun a => h a.1⟩
  have hwf : WellFounded above := Finite.wellFounded_of_trans_of_irrefl above
  have hinside : ∀ a : s, Acc (fun b a => Leads next a b) a.1 := by
    intro a
    induction a using hwf.induction with
    | _ a ih => exact Acc.intro _ fun b hb => ih ⟨b, hs _ b hb⟩ (.single hb)
  exact Acc.intro _ fun b hb => hinside ⟨b, hs a b hb⟩

/-- **every chain ends if and only if none leads back to itself** -/
theorem stops_forall_iff (s : Finset α) (hs : ∀ a b, Leads next a b → b ∈ s) :
    (∀ a, ∃ fuel, stops next fuel a = true) ↔ ¬ ∃ a, Relation.TransGen (Leads next) a a := by
  constructor
  · rintro h ⟨a, ha⟩
    exact not_acc_of_cycle next ha ((stops_iff_acc next).mp (h a))
  · intro h a
    exact (stops_iff_acc next).mpr (acc_of_acyclic next s hs (not_exists.mp h) a)

end Argent.Chain
