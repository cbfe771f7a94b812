import Argent.Base.BTree
import Mathlib.Logic.Relation

/-!
# A stack of what is still to be visited

The loop that pops an element, skips it when it was seen, and pushes what it leads to.

* `close`          the loop;
* `mem_close`      **what is collected is what can be reached from the stack**.
-/

set_option linter.unusedSectionVars false

namespace Argent.Worklist
variable {α : Type*} [LinearOrder α] (next : BTreeMap α (List α))

/-- the elements whose followers are known and were not pushed yet -/
def unseen (seen : BTreeSet α) : Finset α := next.keys.toFinset \ seen.toFinset

theorem unseen_lt {seen : BTreeSet α} {a : α} (hseen : a ∉ seen) (hkey : a ∈ next.keys) :
    (unseen next (insert a seen)).card < (unseen next seen).card := by
  apply Finset.card_lt_card
  refine Finset.ssubset_iff_subset_ne.mpr ⟨fun x hx => ?_, fun heq => ?_⟩
  · obtain ⟨hx, hnot⟩ := Finset.mem_sdiff.mp hx
    refine Finset.mem_sdiff.mpr ⟨hx, fun hin => hnot ?_⟩
    exact BTreeSet.mem_toFinset.mpr (BTreeSet.mem_insert.mpr (.inr (BTreeSet.mem_toFinset.mp hin)))
  · have ha : a ∈ unseen next seen := Finset.mem_sdiff.mpr
      ⟨BTreeSet.mem_toFinset.mpr hkey, fun hin => hseen (BTreeSet.mem_toFinset.mp hin)⟩
    rw [← heq] at ha
    exact (Finset.mem_sdiff.mp ha).2
      (BTreeSet.mem_toFinset.mpr (BTreeSet.mem_insert.mpr (.inl rfl)))

theorem unseen_le (seen : BTreeSet α) (a : α) :
    (unseen next (insert a seen)).card ≤ (unseen next seen).card := by
  apply Finset.card_le_card
  intro x hx
  obtain ⟨hx, hnot⟩ := Finset.mem_sdiff.mp hx
  refine Finset.mem_sdiff.mpr ⟨hx, fun hin => hnot ?_⟩
  exact BTreeSet.mem_toFinset.mpr (BTreeSet.mem_insert.mpr (.inr (BTreeSet.mem_toFinset.mp hin)))

/-- what `a` leads to -/
def targets (a : α) : List α := (next.get a).getD []

/-- `while let Some(a) = pending.pop()`, the top of the stack first -/
def close (seen : BTreeSet α) : List α → BTreeSet α
  | [] => seen
  | a :: pending =>
    if a ∈ seen then close seen pending
    else close (insert a seen) ((targets next a).reverse ++ pending)
termination_by pending => ((unseen next seen).card, pending.length)
decreasing_by
  · exact Prod.Lex.right _ (Nat.lt_succ_self _)
  · rename_i hseen
    by_cases hkey : a ∈ next.keys
    · exact Prod.Lex.left _ _ (unseen_lt next hseen hkey)
    · have hnone : targets next a = [] := by
        unfold targets
        rw [Option.not_isSome_iff_eq_none.mp fun h => hkey ((next.mem_keys a).mpr h)]
        rfl
      rw [hnone]
      obtain hlt | heq := Nat.lt_or_eq_of_le (unseen_le next seen a)
      · exact Prod.Lex.left _ _ hlt
      · rw [heq]
        exact Prod.Lex.right _ (Nat.lt_succ_self _)

/-- the second element follows the first -/
def Follows (a b : α) : Prop := b ∈ targets next a

/-- what is seen is closed, up to what is still on the stack -/
def Covered (seen : BTreeSet α) (pending : List α) : Prop :=
  ∀ a ∈ seen, ∀ b, Follows next a b → b ∈ seen ∨ b ∈ pending

variable {next}

theorem Covered.step {seen : BTreeSet α} {a : α} {pending rest : List α}
    (h : Covered next seen (a :: pending)) (hpending : ∀ b ∈ pending, b ∈ rest)
    (hnext : ∀ b, Follows next a b → b ∈ rest) : Covered next (insert a seen) rest := by
  intro x hx b hb
  obtain rfl | hx := BTreeSet.mem_insert.mp hx
  · exact .inr (hnext b hb)
  · obtain hin | hin := h x hx b hb
    · exact .inl (BTreeSet.mem_insert.mpr (.inr hin))
    · obtain rfl | hin := List.mem_cons.mp hin
      · exact .inl (BTreeSet.mem_insert.mpr (.inl rfl))
      · exact .inr (hpending b hin)

/-- the loop ends with a closed set that holds what was seen and what was on the stack, and
nothing that is not reached from there -/
theorem close_spec (seen : BTreeSet α) (pending : List α) (h : Covered next seen pending) :
    (∀ a, a ∈ seen ∨ a ∈ pending → a ∈ close next seen pending) ∧
      Covered next (close next seen pending) [] ∧
      ∀ x ∈ close next seen pending,
        x ∈ seen ∨ ∃ a ∈ pending, Relation.ReflTransGen (Follows next) a x := by
  induction seen, pending using close.induct next with
  | case1 seen =>
    rw [close]
    refine ⟨fun a ha => ha.resolve_right List.not_mem_nil, h, fun x hx => .inl hx⟩
  | case2 seen a pending hseen ih =>
    rw [close, if_pos hseen]
    obtain ⟨hkeeps, hclosed, horigin⟩ := ih fun x hx b hb => by
      obtain hin | hin := h x hx b hb
      · exact .inl hin
      · obtain rfl | hin := List.mem_cons.mp hin
        · exact .inl hseen
        · exact .inr hin
    refine ⟨fun x hx => hkeeps x ?_, hclosed, fun x hx => ?_⟩
    · obtain hx | hx := hx
      · exact .inl hx
      · obtain rfl | hx := List.mem_cons.mp hx
        · exact .inl hseen
        · exact .inr hx
    · obtain hx | ⟨y, hy, hyx⟩ := horigin x hx
      · exact .inl hx
      · exact .inr ⟨y, List.mem_cons_of_mem _ hy, hyx⟩
  | case3 seen a pending hseen ih =>
    rw [close, if_neg hseen]
    obtain ⟨hkeeps, hclosed, horigin⟩ := ih (h.step (fun _ hb => List.mem_append_right _ hb)
      fun b hb => List.mem_append_left _ (List.mem_reverse.mpr hb))
    refine ⟨fun x hx => hkeeps x ?_, hclosed, fun x hx => ?_⟩
    · obtain hx | hx := hx
      · exact .inl (BTreeSet.mem_insert.mpr (.inr hx))
      · obtain rfl | hx := List.mem_cons.mp hx
        · exact .inl (BTreeSet.mem_insert.mpr (.inl rfl))
        · exact .inr (List.mem_append_right _ hx)
    · obtain hx | ⟨y, hy, hyx⟩ := horigin x hx
      · obtain rfl | hx := BTreeSet.mem_insert.mp hx
        · exact .inr ⟨x, List.mem_cons_self, .refl⟩
        · exact .inl hx
      · obtain hy | hy := List.mem_append.mp hy
        · exact .inr ⟨a, List.mem_cons_self, hyx.head (List.mem_reverse.mp hy)⟩
        · exact .inr ⟨y, List.mem_cons_of_mem _ hy, hyx⟩

/-- **what the loop collects is what can be reached from the stack** -/
theorem mem_close {pending : List α} {x : α} :
    x ∈ close next ∅ pending ↔ ∃ a ∈ pending, Relation.ReflTransGen (Follows next) a x := by
  obtain ⟨hkeeps, hclosed, horigin⟩ := close_spec ∅ pending
    fun a ha => absurd ha (BTreeSet.not_mem_empty a)
  constructor
  · intro hx
    exact (horigin x hx).resolve_left (BTreeSet.not_mem_empty x)
  · rintro ⟨a, ha, hax⟩
    induction hax with
    | refl => exact hkeeps a (.inr ha)
    | tail _ hyz ih => exact (hclosed _ ih _ hyz).resolve_right List.not_mem_nil

end Argent.Worklist
