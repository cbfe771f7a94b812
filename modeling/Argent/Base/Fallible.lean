import Mathlib.Data.List.Forall2

/-!
# Fallible computations

Computations in `Except`, as they succeed.

* `bind_eq_ok`       a sequence succeeds when its steps do;
* `foldlM_ok`        **an invariant of the steps holds after a successful fold**;
* `mapM_ok`          the results of a successful traversal, element by element.
-/

set_option linter.unusedSectionVars false

namespace Argent.Fallible
universe u v
variable {ε : Type u} {α β σ : Type v}

theorem bind_eq_ok {x : Except ε α} {f : α → Except ε β} {b : β} :
    (x >>= f) = .ok b ↔ ∃ a, x = .ok a ∧ f a = .ok b := by
  cases x with
  | error e =>
    refine ⟨fun h => ?_, fun ⟨a, h, _⟩ => ?_⟩ <;> cases h
  | ok a =>
    refine ⟨fun h => ⟨a, rfl, h⟩, fun ⟨a', h, h'⟩ => ?_⟩
    cases h
    exact h'

theorem pure_eq_ok {a b : α} : (pure a : Except ε α) = .ok b ↔ a = b := by
  refine ⟨fun h => ?_, fun h => by rw [h]; rfl⟩
  cases h
  rfl

/-! ## guards -/

/-- `if c { return Err(e) }` -/
def rejectIf (c : Prop) [Decidable c] (e : ε) : Except ε PUnit :=
  if c then .error e else .ok ⟨⟩

/-- `x.ok_or(e)` -/
def okOr (x : Option α) (e : ε) : Except ε α :=
  match x with
  | some a => .ok a
  | none => .error e

@[simp] theorem rejectIf_eq_ok {c : Prop} [Decidable c] {e : ε} {u : PUnit} :
    rejectIf c e = .ok u ↔ ¬ c := by
  unfold rejectIf
  split_ifs with h <;> simp [h]

@[simp] theorem okOr_eq_ok {x : Option α} {e : ε} {a : α} : okOr x e = .ok a ↔ x = some a := by
  cases x <;> simp [okOr]

/-- how a function of the source ends without a result: with an error value, or in a panic -/
inductive Fault (ε : Type*) where
  | error (e : ε)
  | panic (message : String)
deriving Repr, DecidableEq

/-- `return Err(e)` -/
def fail (e : ε) : Except (Fault ε) α := .error (.error e)

/-- `x.expect(message)` -/
def expect (x : Option α) (message : String) : Except (Fault ε) α := okOr x (.panic message)

/-- `x.map_err(f)?` in a function that can panic -/
def orFail {ε' : Type*} (f : ε' → ε) (x : Except ε' α) : Except (Fault ε) α :=
  x.mapError fun e => .error (f e)

/-- the same for an error of a function that can itself panic -/
def mapFault {ε' : Type*} (f : ε' → ε) (x : Except (Fault ε') α) : Except (Fault ε) α :=
  match x with
  | .ok a => .ok a
  | .error (.error e) => .error (.error (f e))
  | .error (.panic message) => .error (.panic message)

@[simp] theorem mapFault_eq_ok {ε' : Type*} {f : ε' → ε} {x : Except (Fault ε') α} {a : α} :
    mapFault f x = .ok a ↔ x = .ok a := by
  unfold mapFault
  split <;> simp

@[simp] theorem mapError_eq_ok {ε' : Type*} {f : ε → ε'} {x : Except ε α} {a : α} :
    x.mapError f = .ok a ↔ x = .ok a := by
  cases x <;> simp [Except.mapError]

@[simp] theorem expect_eq_ok {x : Option α} {message : String} {a : α} :
    expect (ε := ε) x message = .ok a ↔ x = some a := okOr_eq_ok

@[simp] theorem orFail_eq_ok {ε' : Type*} {f : ε' → ε} {x : Except ε' α} {a : α} :
    orFail f x = .ok a ↔ x = .ok a := mapError_eq_ok

theorem check_eq_ok {x : Except ε PUnit} {y : Except ε α} {a : α} :
    (x >>= fun _ => y) = .ok a ↔ x = .ok ⟨⟩ ∧ y = .ok a := by
  rw [bind_eq_ok]
  constructor
  · rintro ⟨_, hx, hy⟩
    exact ⟨hx, hy⟩
  · rintro ⟨hx, hy⟩
    exact ⟨⟨⟩, hx, hy⟩

theorem exists_ok_of_isOk {x : Except ε α} (h : x.isOk = true) : ∃ a, x = .ok a := by
  cases x with
  | error _ => cases h
  | ok a => exact ⟨a, rfl⟩

theorem eq_ok_get {x : Except ε α} (h : x.toOption.isSome = true) : x = .ok (x.toOption.get h) := by
  cases x with
  | error _ => cases h
  | ok a => rfl

theorem bind_eq_error {x : Except ε α} {f : α → Except ε β} {e : ε} :
    (x >>= f) = .error e ↔ x = .error e ∨ ∃ a, x = .ok a ∧ f a = .error e := by
  cases x with
  | error e' =>
    refine ⟨fun h => Or.inl (by cases h; rfl), fun h => ?_⟩
    obtain h | ⟨_, h, _⟩ := h
    · cases h
      rfl
    · cases h
  | ok a =>
    refine ⟨fun h => Or.inr ⟨a, rfl, h⟩, fun h => ?_⟩
    obtain h | ⟨a', h, h'⟩ := h
    · cases h
    · cases h
      exact h'

/-- the step that makes a fold fail -/
theorem foldlM_error {f : σ → α → Except ε σ} {l : List α} {init : σ} {e : ε}
    (h : l.foldlM f init = .error e) : ∃ s, ∃ a ∈ l, f s a = .error e := by
  induction l generalizing init with
  | nil => cases h
  | cons a l ih =>
    rw [List.foldlM_cons, bind_eq_error] at h
    obtain h | ⟨s, _, h⟩ := h
    · exact ⟨init, a, List.mem_cons_self, h⟩
    · obtain ⟨s, b, hb, hs⟩ := ih h
      exact ⟨s, b, List.mem_cons_of_mem _ hb, hs⟩

/-- `P done` holds of the accumulator once the elements of `done` are folded in -/
theorem foldlM_ok {f : σ → α → Except ε σ} (P : List α → σ → Prop) {l : List α} {init out : σ}
    (h : l.foldlM f init = .ok out) (h0 : P [] init)
    (hstep : ∀ done s a s', a ∈ l → P done s → f s a = .ok s' → P (done ++ [a]) s') :
    P l out := by
  suffices hgen : ∀ (rest done : List α) (s : σ), done ++ rest = l → P done s →
      rest.foldlM f s = .ok out → P l out by
    exact hgen l [] init (List.nil_append l) h0 h
  intro rest
  induction rest with
  | nil =>
    intro done s hl hP hf
    rw [List.foldlM_nil, pure_eq_ok] at hf
    rw [List.append_nil] at hl
    rwa [← hl, ← hf]
  | cons a rest ih =>
    intro done s hl hP hf
    rw [List.foldlM_cons, bind_eq_ok] at hf
    obtain ⟨s', hs', hrest⟩ := hf
    have ha : a ∈ l := by
      rw [← hl]
      exact List.mem_append_right _ List.mem_cons_self
    refine ih (done ++ [a]) s' ?_ (hstep done s a s' ha hP hs') hrest
    rw [← hl, List.append_assoc, List.singleton_append]

theorem mapM_ok {f : α → Except ε β} {l : List α} {out : List β} (h : l.mapM f = .ok out) :
    List.Forall₂ (fun a b => f a = .ok b) l out := by
  induction l generalizing out with
  | nil =>
    rw [List.mapM_nil, pure_eq_ok] at h
    rw [← h]
    exact .nil
  | cons a l ih =>
    rw [List.mapM_cons, bind_eq_ok] at h
    obtain ⟨b, hb, h⟩ := h
    rw [bind_eq_ok] at h
    obtain ⟨bs, hbs, h⟩ := h
    rw [pure_eq_ok] at h
    rw [← h]
    exact .cons hb (ih hbs)

theorem mapM_of_forall₂ {f : α → Except ε β} {l : List α} {out : List β}
    (h : List.Forall₂ (fun a b => f a = .ok b) l out) : l.mapM f = .ok out := by
  induction h with
  | nil => rfl
  | cons hab _ ih =>
    rw [List.mapM_cons, hab, ih]
    rfl

theorem forall₂_beside {γ δ η : Type*} {R : γ → δ → Prop} {S : γ → η → Prop} {T : δ → η → Prop}
    {l : List γ} {m : List δ} {n : List η} (hm : List.Forall₂ R l m) (hn : List.Forall₂ S l n)
    (h : ∀ a ∈ l, ∀ b c, R a b → S a c → T b c) : List.Forall₂ T m n := by
  induction hm generalizing n with
  | nil =>
    cases hn
    exact .nil
  | cons hab _ ih =>
    cases hn with
    | cons hac hn =>
      refine .cons (h _ List.mem_cons_self _ _ hab hac) (ih hn fun a ha => ?_)
      exact h a (List.mem_cons_of_mem _ ha)

theorem mem_of_forall₂_left {R : α → β → Prop} {l : List α} {l' : List β}
    (h : List.Forall₂ R l l') {a : α} (ha : a ∈ l) : ∃ b ∈ l', R a b := by
  induction h with
  | nil => exact absurd ha List.not_mem_nil
  | @cons x y xs ys hxy _ ih =>
    obtain ha | ha := List.mem_cons.mp ha
    · exact ⟨y, List.mem_cons_self, ha ▸ hxy⟩
    · obtain ⟨b, hb, hab⟩ := ih ha
      exact ⟨b, List.mem_cons_of_mem _ hb, hab⟩

theorem forall₂_getElem? {R : α → β → Prop} {l : List α} {l' : List β}
    (h : List.Forall₂ R l l') {j : Nat} {b : β} (hb : l'[j]? = some b) :
    ∃ a, l[j]? = some a ∧ R a b := by
  induction h generalizing j with
  | nil => cases hb
  | cons hhead _ ih =>
    cases j with
    | zero => exact ⟨_, rfl, Option.some_inj.mp hb ▸ hhead⟩
    | succ j => exact ih hb

theorem pairwise_of_forall₂ {R : α → β → Prop} {S : β → β → Prop} {T : α → α → Prop} {l : List α}
    {l' : List β} (h : List.Forall₂ R l l') (hl' : l'.Pairwise S)
    (hST : ∀ a b a' b', R a a' → R b b' → S a' b' → T a b) : l.Pairwise T := by
  induction h with
  | nil => exact .nil
  | cons hxy hrest ih =>
    obtain ⟨hhead, htail⟩ := List.pairwise_cons.mp hl'
    refine .cons (fun b hb => ?_) (ih htail)
    obtain ⟨b', hb', hR⟩ := mem_of_forall₂_left hrest hb
    exact hST _ _ _ _ hxy hR (hhead b' hb')

/-- lists that are related to a list of lists are the lists that are related to them, one after the
other -/
theorem forall₂_flatMap_iff {γ : Type*} {R : β → γ → Prop} {f : α → List β} {l : List α}
    {out : List γ} : List.Forall₂ R (l.flatMap f) out ↔
      ∃ parts, List.Forall₂ (fun a part => List.Forall₂ R (f a) part) l parts ∧ parts.flatten = out := by
  constructor
  · intro h
    induction l generalizing out with
    | nil =>
      cases h
      exact ⟨[], .nil, rfl⟩
    | cons a l ih =>
      rw [List.flatMap_cons] at h
      have hlength := h.length_eq
      rw [List.length_append] at hlength
      rw [← List.take_append_drop (f a).length out] at h
      have hhead := List.forall₂_take_append _ _ _ h
      have htail := List.forall₂_drop_append _ _ _ h
      rw [List.length_take, Nat.min_eq_left (by omega)] at hhead htail
      rw [List.take_left] at hhead
      rw [List.drop_left] at htail
      obtain ⟨parts, hparts, hflatten⟩ := ih htail
      refine ⟨_ :: parts, .cons hhead hparts, ?_⟩
      rw [List.flatten_cons, hflatten, List.take_append_drop]
  · rintro ⟨parts, hparts, rfl⟩
    induction hparts with
    | nil => exact .nil
    | cons hhead _ ih =>
      rw [List.flatMap_cons, List.flatten_cons]
      exact List.rel_append hhead ih

theorem forall₂_of_mapM {R : α → β → Prop} {f : α → Except ε β} {l : List α} {out : List β}
    (h : l.mapM f = .ok out) (hR : ∀ a ∈ l, ∀ b, f a = .ok b → R a b) :
    List.Forall₂ R l out := by
  have hall := mapM_ok h
  clear h
  induction hall with
  | nil => exact .nil
  | cons hab _ ih =>
    refine .cons (hR _ List.mem_cons_self _ hab) (ih fun a ha => ?_)
    exact hR a (List.mem_cons_of_mem _ ha)

theorem getElem?_of_mapM_ok {f : α → Except ε β} {l : List α} {out : List β}
    (h : l.mapM f = .ok out) {i : Nat} {a : α} (ha : l[i]? = some a) :
    ∃ b, out[i]? = some b ∧ f a = .ok b := by
  obtain ⟨hi, rfl⟩ := List.getElem?_eq_some_iff.mp ha
  have hi' : i < out.length := (mapM_ok h).length_eq ▸ hi
  exact ⟨out[i], List.getElem?_eq_getElem hi', (mapM_ok h).get hi hi'⟩

/-- each input of a successful traversal has its result -/
theorem mapM_ok_of_mem {f : α → Except ε β} {l : List α} {out : List β} (h : l.mapM f = .ok out)
    {a : α} (ha : a ∈ l) : ∃ b ∈ out, f a = .ok b :=
  mem_of_forall₂_left (mapM_ok h) ha

theorem mem_of_mapM_ok {f : α → Except ε β} {l : List α} {out : List β} (h : l.mapM f = .ok out)
    {b : β} (hb : b ∈ out) : ∃ a ∈ l, f a = .ok b :=
  mem_of_forall₂_left (List.Forall₂.flip (mapM_ok h)) hb

theorem mem_iff_of_mapM_ok {f : α → Except ε β} {l : List α} {out : List β}
    (h : l.mapM f = .ok out) {b : β} : b ∈ out ↔ ∃ a ∈ l, f a = .ok b := by
  refine ⟨mem_of_mapM_ok h, fun ⟨a, ha, hb⟩ => ?_⟩
  obtain ⟨b', hb', heq⟩ := mapM_ok_of_mem h ha
  rw [hb] at heq
  exact Except.ok.inj heq ▸ hb'

/-- a traversal whose inputs can be read off its results -/
theorem eq_map_of_mapM_ok {f : α → Except ε β} {g : β → α} {l : List α} {out : List β}
    (h : l.mapM f = .ok out) (hg : ∀ a b, f a = .ok b → a = g b) : l = out.map g := by
  have hall := mapM_ok h
  clear h
  induction hall with
  | nil => rfl
  | cons hab _ ih => rw [List.map_cons, ← ih, ← hg _ _ hab]

theorem exists_mapM_ok {f : α → Except ε β} {l : List α} (h : ∀ a ∈ l, ∃ b, f a = .ok b) :
    ∃ out, l.mapM f = .ok out := by
  induction l with
  | nil => exact ⟨[], rfl⟩
  | cons a l ih =>
    obtain ⟨b, hb⟩ := h a List.mem_cons_self
    obtain ⟨out, hout⟩ := ih fun x hx => h x (List.mem_cons_of_mem _ hx)
    refine ⟨b :: out, ?_⟩
    rw [List.mapM_cons, hb, hout]
    rfl

/-- what the results of a traversal stand for can be read off its inputs -/
theorem flatMap_of_mapM_ok {γ : Type*} {f : α → Except ε β} {g : β → List γ} {k : α → List γ}
    {l : List α} {out : List β} (h : l.mapM f = .ok out) (hg : ∀ a b, f a = .ok b → g b = k a) :
    out.flatMap g = l.flatMap k := by
  have hall := mapM_ok h
  clear h
  induction hall with
  | nil => rfl
  | cons hab _ ih => rw [List.flatMap_cons, List.flatMap_cons, ih, hg _ _ hab]

theorem map_of_mapM_ok {γ : Type*} {f : α → Except ε β} {g : β → γ} {k : α → γ} {l : List α}
    {out : List β} (h : l.mapM f = .ok out) (hg : ∀ a b, f a = .ok b → g b = k a) :
    out.map g = l.map k := by
  rw [List.map_eq_flatMap, List.map_eq_flatMap]
  exact flatMap_of_mapM_ok h fun a b hab => by rw [hg a b hab]

theorem nodup_of_mapM_ok {f : α → Except ε β} {l : List α} {out : List β}
    (h : l.mapM f = .ok out) (hl : l.Nodup)
    (hinj : ∀ a a' b, f a = .ok b → f a' = .ok b → a = a') : out.Nodup := by
  have hall := mapM_ok h
  clear h
  induction hall with
  | nil => exact List.nodup_nil
  | @cons a b as bs hab hrest ih =>
    rw [List.nodup_cons] at hl
    refine List.nodup_cons.mpr ⟨fun hmem => ?_, ih hl.2⟩
    obtain ⟨a', ha', hab'⟩ := mem_of_forall₂_left (List.Forall₂.flip hrest) hmem
    exact hl.1 (hinj a a' b hab hab' ▸ ha')

theorem mapM_of_forall {f : α → Except ε β} {g : α → β} {l : List α}
    (h : ∀ a ∈ l, f a = .ok (g a)) : l.mapM f = .ok (l.map g) := by
  induction l with
  | nil => rfl
  | cons a l ih =>
    rw [List.mapM_cons, h a List.mem_cons_self, ih fun x hx => h x (List.mem_cons_of_mem _ hx)]
    rfl

theorem forM_ok_of_mem {f : α → Except ε PUnit} {l : List α} (h : l.forM f = .ok ⟨⟩) {a : α}
    (ha : a ∈ l) : f a = .ok ⟨⟩ := by
  induction l with
  | nil => exact absurd ha List.not_mem_nil
  | cons b l ih =>
    obtain ⟨_, hb, hl⟩ := bind_eq_ok.mp h
    obtain ha | ha := List.mem_cons.mp ha
    · rw [ha, hb]
    · exact ih hl ha

theorem forM_error {f : α → Except ε PUnit} {l : List α} {e : ε} (h : l.forM f = .error e) :
    ∃ a ∈ l, f a = .error e := by
  induction l with
  | nil => cases h
  | cons b l ih =>
    obtain h | ⟨_, -, h⟩ := bind_eq_error.mp h
    · exact ⟨b, List.mem_cons_self, h⟩
    · obtain ⟨a, ha, h⟩ := ih h
      exact ⟨a, List.mem_cons_of_mem b ha, h⟩

theorem forM_eq_ok {f : α → Except ε PUnit} {l : List α} :
    l.forM f = .ok ⟨⟩ ↔ ∀ a ∈ l, f a = .ok ⟨⟩ := by
  refine ⟨fun h a ha => forM_ok_of_mem h ha, fun h => ?_⟩
  induction l with
  | nil => rfl
  | cons b l ih =>
    refine check_eq_ok.mpr ⟨h b List.mem_cons_self, ?_⟩
    exact ih fun a ha => h a (List.mem_cons_of_mem _ ha)

end Argent.Fallible
