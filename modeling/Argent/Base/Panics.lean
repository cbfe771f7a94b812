import Argent.Base.Fallible

/-!
# Panics

Which panics a computation can end in.

* `indexAt`, `subtract`, `headUpTo`, `tailFrom`      operations that panic outside their range;
* `Avoids`      no panic with a message of a given kind;
* `Avoids.bind`      **a sequence avoids what its steps avoid**;
* `orFail_bind`      a computation that cannot panic, step by step among computations that can.
-/

set_option linter.unusedSectionVars false

namespace Argent.Fallible
universe u v
variable {ε : Type u} {α β σ : Type u} {bad : String → Prop}

/-! ## operations with a range -/

/-- `items[i]` -/
def indexAt (items : List α) (i : Nat) : Except (Fault ε) α :=
  expect items[i]? "index out of bounds"

/-- `a - b` of unsigned integers -/
def subtract (a b : Nat) : Except (Fault ε) Nat :=
  expect (if b ≤ a then some (a - b) else none) "attempt to subtract with overflow"

/-- `&items[..stop]` -/
def headUpTo (items : List α) (stop : Nat) : Except (Fault ε) (List α) :=
  expect (if stop ≤ items.length then some (items.take stop) else none)
    "slice end is out of range"

/-- `&items[start..]` -/
def tailFrom (items : List α) (start : Nat) : Except (Fault ε) (List α) :=
  expect (if start ≤ items.length then some (items.drop start) else none)
    "slice start is out of range"

theorem indexAt_of_eq {items : List α} {i : Nat} {a : α} (h : items[i]? = some a) :
    (indexAt items i : Except (Fault ε) α) = .ok a := by
  unfold indexAt
  rw [h]
  rfl

theorem subtract_of_le {a b : Nat} (h : b ≤ a) :
    (subtract a b : Except (Fault ε) Nat) = .ok (a - b) := by
  unfold subtract
  rw [if_pos h]
  rfl

theorem headUpTo_of_le {items : List α} {stop : Nat} (h : stop ≤ items.length) :
    (headUpTo items stop : Except (Fault ε) (List α)) = .ok (items.take stop) := by
  unfold headUpTo
  rw [if_pos h]
  rfl

theorem tailFrom_of_le {items : List α} {start : Nat} (h : start ≤ items.length) :
    (tailFrom items start : Except (Fault ε) (List α)) = .ok (items.drop start) := by
  unfold tailFrom
  rw [if_pos h]
  rfl

/-! ## which panics -/

/-- `x` does not panic with a bad message -/
def Avoids (bad : String → Prop) (x : Except (Fault ε) α) : Prop :=
  ∀ message, x = .error (.panic message) → ¬ bad message

namespace Avoids

theorem ok (a : α) : Avoids bad (.ok a : Except (Fault ε) α) := fun _ h => by cases h

theorem pure (a : α) : Avoids bad (Pure.pure a : Except (Fault ε) α) := ok a

theorem fail (e : ε) : Avoids bad (Fallible.fail e : Except (Fault ε) α) := fun _ h => by cases h

theorem bind {x : Except (Fault ε) α} {f : α → Except (Fault ε) β} (hx : Avoids bad x)
    (hf : ∀ a, x = .ok a → Avoids bad (f a)) : Avoids bad (x >>= f) := by
  intro message h
  obtain h | ⟨a, ha, h⟩ := bind_eq_error.mp h
  · exact hx message h
  · exact hf a ha message h

theorem okOr (x : Option α) (e : ε) : Avoids bad (Fallible.okOr x (Fault.error e)) := by
  cases x with
  | none => exact fail e
  | some a => exact ok a

theorem expect {message : String} (x : Option α) (h : ¬ bad message) :
    Avoids bad (Fallible.expect x message : Except (Fault ε) α) := by
  cases x with
  | none =>
    intro other heq
    cases heq
    exact h
  | some a => exact ok a

theorem orFail {ε' : Type*} (f : ε' → ε) (x : Except ε' α) :
    Avoids bad (Fallible.orFail f x) := by
  cases x with
  | error e => exact fail (f e)
  | ok a => exact ok a

theorem mapFault {ε' : Type u} (f : ε' → ε) {x : Except (Fault ε') α} (h : Avoids bad x) :
    Avoids bad (Fallible.mapFault f x) := by
  intro message heq
  unfold Fallible.mapFault at heq
  split at heq
  next => cases heq
  next => cases heq
  next => exact h message (by cases heq; rfl)

theorem foldlM {f : σ → α → Except (Fault ε) σ} {l : List α} {init : σ}
    (h : ∀ s, ∀ a ∈ l, Avoids bad (f s a)) : Avoids bad (l.foldlM f init) := by
  induction l generalizing init with
  | nil => exact pure init
  | cons a l ih =>
    rw [List.foldlM_cons]
    refine bind (h init a List.mem_cons_self) fun s _ => ih fun s' b hb => ?_
    exact h s' b (List.mem_cons_of_mem _ hb)

theorem mapM {f : α → Except (Fault ε) β} {l : List α} (h : ∀ a ∈ l, Avoids bad (f a)) :
    Avoids bad (l.mapM f) := by
  induction l with
  | nil => exact pure []
  | cons a l ih =>
    rw [List.mapM_cons]
    refine bind (h a List.mem_cons_self) fun b _ => ?_
    refine bind (ih fun x hx => h x (List.mem_cons_of_mem _ hx)) fun bs _ => ?_
    exact pure (b :: bs)

theorem forM {f : α → Except (Fault ε) PUnit} {l : List α} (h : ∀ a ∈ l, Avoids bad (f a)) :
    Avoids bad (l.forM f) := by
  induction l with
  | nil => exact ok _
  | cons a l ih =>
    refine bind (h a List.mem_cons_self) fun _ _ => ?_
    exact ih fun x hx => h x (List.mem_cons_of_mem _ hx)

end Avoids

/-- no panic at all -/
abbrev NeverPanics (x : Except (Fault ε) α) : Prop := Avoids (fun _ => True) x

theorem neverPanics_iff {x : Except (Fault ε) α} :
    NeverPanics x ↔ ∀ message, x ≠ .error (.panic message) :=
  ⟨fun h message heq => h message heq trivial, fun h message heq _ => h message heq⟩

theorem Avoids.of_eq_some {message : String} {x : Option α} {a : α} (h : x = some a) :
    Avoids bad (Fallible.expect x message : Except (Fault ε) α) := by
  rw [h]
  exact ok a

theorem Avoids.rejectIf (c : Prop) [Decidable c] (e : ε) :
    Avoids bad (Fallible.rejectIf c (Fault.error e)) := by
  unfold Fallible.rejectIf
  split_ifs
  · exact Avoids.fail e
  · exact Avoids.ok _

/-! ## computations that cannot panic -/

theorem bind_congr_ok {x : Except ε α} {f g : α → Except ε β} (h : ∀ a, x = .ok a → f a = g a) :
    (x >>= f) = (x >>= g) := by
  cases x with
  | error e => rfl
  | ok a => exact h a rfl

theorem forM_congr {f g : α → Except ε PUnit.{u + 1}} {l : List α} (h : ∀ a ∈ l, f a = g a) :
    l.forM f = l.forM g := by
  induction l with
  | nil => rfl
  | cons a l ih =>
    show (f a >>= fun _ => l.forM f) = (g a >>= fun _ => l.forM g)
    rw [h a List.mem_cons_self, ih fun b hb => h b (List.mem_cons_of_mem _ hb)]

section
variable {ε' : Type*} (f : ε' → ε)

theorem orFail_bind (x : Except ε' α) (g : α → Except ε' β) :
    orFail f (x >>= g) = orFail f x >>= fun a => orFail f (g a) := by
  cases x with
  | error e => rfl
  | ok a => rfl

theorem orFail_rejectIf (c : Prop) [Decidable c] (e : ε') :
    orFail f (rejectIf c e) = rejectIf c (.error (f e)) := by
  unfold rejectIf
  split_ifs <;> rfl

theorem orFail_okOr (x : Option α) (e : ε') :
    orFail f (okOr x e) = okOr x (.error (f e)) := by
  cases x with
  | none => rfl
  | some a => rfl

theorem orFail_mapM (g : α → Except ε' β) (l : List α) :
    orFail f (l.mapM g) = l.mapM fun a => orFail f (g a) := by
  induction l with
  | nil => rfl
  | cons a l ih =>
    rw [List.mapM_cons, List.mapM_cons, orFail_bind]
    congr 1
    funext b
    rw [orFail_bind, ih]
    rfl

theorem orFail_foldlM (g : σ → α → Except ε' σ) (l : List α) (init : σ) :
    orFail f (l.foldlM g init) = l.foldlM (fun s a => orFail f (g s a)) init := by
  induction l generalizing init with
  | nil => rfl
  | cons a l ih =>
    rw [List.foldlM_cons, List.foldlM_cons, orFail_bind]
    congr 1
    funext s
    exact ih s

theorem orFail_forM (g : α → Except ε' PUnit.{u + 1}) (l : List α) :
    orFail f (l.forM g) = l.forM fun a => orFail f (g a) := by
  induction l with
  | nil => rfl
  | cons a l ih =>
    show orFail f (g a >>= fun _ => l.forM g) = _
    rw [orFail_bind]
    show _ = orFail f (g a) >>= fun _ => l.forM fun a => orFail f (g a)
    congr 1
    funext u
    exact ih

end

end Argent.Fallible
