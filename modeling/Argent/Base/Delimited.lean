import Mathlib.Algebra.GroupWithZero.Nat
import Mathlib.Data.List.Basic
import Mathlib.Data.Set.Function
import Mathlib.Data.Set.Prod
import Mathlib.Tactic.Common

/-!
# Delimited encodings

An encoding is delimited when a list that starts with an encoded value tells where it ends: value
and rest are read off in one way.  Concatenations of delimited encodings are delimited.

* `Delimited`                    value and rest are determined by their concatenation;
* `Delimited.pair`, `Delimited.flatMap`      one encoding after the other;
* `littleEndian`                 numbers in a fixed number of bytes;
* `delimited_counted`            **a list after its length is delimited**.
-/

set_option linter.unusedSectionVars false

variable {α β γ δ : Type*}

/-- the encoded values of `S` and what follows them are determined by their concatenation -/
def Delimited (S : Set α) (enc : α → List β) : Prop :=
  ∀ a ∈ S, ∀ b ∈ S, ∀ r s, enc a ++ r = enc b ++ s → a = b ∧ r = s

namespace Delimited

theorem injOn {S : Set α} {enc : α → List β} (h : Delimited S enc) : S.InjOn enc := by
  intro a ha b hb hab
  refine (h a ha b hb [] [] ?_).1
  rw [hab]

theorem of_length {S : Set α} {enc : α → List β} {k : Nat} (hlength : ∀ a ∈ S, (enc a).length = k)
    (hinj : S.InjOn enc) : Delimited S enc := by
  intro a ha b hb r s h
  obtain ⟨henc, hrest⟩ := List.append_inj h ((hlength a ha).trans (hlength b hb).symm)
  exact ⟨hinj ha hb henc, hrest⟩

theorem flatMap {S : Set α} {enc : α → List β} (h : Delimited S enc) {k : Nat} :
    Delimited {l : List α | l.length = k ∧ ∀ a ∈ l, a ∈ S} fun l => l.flatMap enc := by
  rintro l ⟨hlength, hl⟩ m ⟨hlength', hm⟩ r s heq
  induction l generalizing m k with
  | nil =>
    obtain rfl := List.eq_nil_of_length_eq_zero (hlength'.trans hlength.symm)
    exact ⟨rfl, heq⟩
  | cons a l ih =>
    cases m with
    | nil => cases hlength'.trans hlength.symm
    | cons b m =>
      simp only [List.flatMap_cons, List.append_assoc] at heq
      obtain ⟨rfl, htail⟩ := h a (hl a List.mem_cons_self) b (hm b List.mem_cons_self) _ _ heq
      have hsame : m.length = l.length := Nat.succ.inj (hlength'.trans hlength.symm)
      obtain ⟨rfl, hrest⟩ := ih rfl (fun a ha => hl a (List.mem_cons_of_mem _ ha)) m hsame
        (fun b hb => hm b (List.mem_cons_of_mem _ hb)) htail
      exact ⟨rfl, hrest⟩

end Delimited

/-! ## numbers -/

/-- the last `k` digits of `n` in base 256, the least one first -/
def littleEndian : Nat → Nat → List UInt8
  | 0, _ => []
  | k + 1, n => UInt8.ofNat n :: littleEndian k (n / 256)

theorem length_littleEndian (k n : Nat) : (littleEndian k n).length = k := by
  induction k generalizing n with
  | zero => rfl
  | succ k ih => rw [littleEndian, List.length_cons, ih]

theorem littleEndian_inj {k m n : Nat} (hm : m < 256 ^ k) (hn : n < 256 ^ k)
    (h : littleEndian k m = littleEndian k n) : m = n := by
  induction k generalizing m n with
  | zero => omega
  | succ k ih =>
    obtain ⟨hdigit, hrest⟩ := List.cons.inj h
    rw [Nat.pow_succ] at hm hn
    have hquot : m / 256 = n / 256 :=
      ih (Nat.div_lt_of_lt_mul (by omega)) (Nat.div_lt_of_lt_mul (by omega)) hrest
    have hmod : m % 256 = n % 256 := by
      have := congrArg UInt8.toNat hdigit
      simpa using this
    omega

theorem delimited_littleEndian (k : Nat) : Delimited {n | n < 256 ^ k} (littleEndian k) :=
  .of_length (fun n _ => length_littleEndian k n) fun _ hm _ hn h => littleEndian_inj hm hn h

/-! ## lists after their lengths -/

/-- a list after its length in `k` bytes -/
def counted (k : Nat) (enc : α → List UInt8) (l : List α) : List UInt8 :=
  littleEndian k l.length ++ l.flatMap enc

/-- **a list after its length is delimited** -/
theorem delimited_counted {S : Set α} {enc : α → List UInt8} (h : Delimited S enc) (k : Nat) :
    Delimited {l : List α | l.length < 256 ^ k ∧ ∀ a ∈ l, a ∈ S} (counted k enc) := by
  rintro l ⟨hl, hmem⟩ m ⟨hm, hmem'⟩ r s heq
  simp only [counted, List.append_assoc] at heq
  obtain ⟨hlength, hitems⟩ := delimited_littleEndian k _ hl _ hm _ _ heq
  exact h.flatMap l ⟨rfl, hmem⟩ m ⟨hlength.symm, hmem'⟩ r s hitems
