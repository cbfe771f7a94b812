import Argent.Resolve.Consts

/-!
# Leftmost evaluation of constants

The meaning of integer constants without caches and without a record of the constants that are
being evaluated: both sides of an operator from left to right, up to the first error.  An evaluation
that runs out of every amount of fuel does not terminate.

* `leftmost`      evaluation with fuel;
* `Outcome`      a result, or a cycle where no amount of fuel is enough;
* `evaluate_outcome`      a cached evaluation finds the outcome;
* `constants_contextFree`      **whatever was evaluated before, each constant has its outcome**.
-/

set_option linter.unusedSectionVars false

namespace Argent.Resolve
open Argent.Fallible

abbrev ConstResult := Except ConstIntError Int

namespace ResolvedModules
variable (resolved : ResolvedModules)

/-! ## fuel -/

/-- the result of an expression; `eval` are the results of the constants that it names -/
def leftmostExpr (eval : DeclId → Option ConstResult) (owner : DeclId) :
    List ChildEdge → ConstExpr → Option ConstResult
  | _, .int value => some (.ok value)
  | cursor, .identifier _ =>
    match resolved.constSite owner cursor with
    | some id => eval id
    | none => some (.error .invalidLiteral)
  | cursor, .neg expr =>
    (leftmostExpr eval owner (cursor ++ [.expression]) expr).map fun operand =>
      operand >>= fun value => okOr (checked (-value)) .overflow
  | cursor, .binary op left right =>
    match leftmostExpr eval owner (cursor ++ [.expressionLeft]) left with
    | none => none
    | some (.error e) => some (.error e)
    | some (.ok l) =>
      (leftmostExpr eval owner (cursor ++ [.expressionRight]) right).map fun operand =>
        operand >>= fun r => op.apply l r
  | _, .other => some (.error .invalidLiteral)

/-- the result of a constant, when the fuel is enough -/
def leftmost : Nat → DeclId → Option ConstResult
  | 0, _ => none
  | fuel + 1, id =>
    match resolved.program.constDecl id with
    | none => some (.error .invalidLiteral)
    | some ct =>
      if ct.ty = .int then resolved.leftmostExpr (leftmost fuel) id [] ct.value
      else some (.error (.wrongType ct.ty.toSource))

/-- the result, or a cycle where the evaluation does not terminate -/
def Outcome (id : DeclId) (result : ConstResult) : Prop :=
  (∃ fuel, resolved.leftmost fuel id = some result) ∨
    (result = .error .cycle ∧ ∀ fuel, resolved.leftmost fuel id = none)

variable {resolved}

/-- results survive more fuel for the constants that an expression names -/
theorem leftmostExpr_mono {eval eval' : DeclId → Option ConstResult}
    (h : ∀ id result, eval id = some result → eval' id = some result) {owner : DeclId}
    {expr : ConstExpr} : ∀ {cursor : List ChildEdge} {result : ConstResult},
      resolved.leftmostExpr eval owner cursor expr = some result →
        resolved.leftmostExpr eval' owner cursor expr = some result := by
  induction expr with
  | int value => exact fun hresult => hresult
  | other => exact fun hresult => hresult
  | identifier name =>
    intro cursor result hresult
    unfold leftmostExpr at hresult ⊢
    cases hsite : resolved.constSite owner cursor with
    | none =>
      rw [hsite] at hresult
      exact hresult
    | some id =>
      rw [hsite] at hresult
      exact h id result hresult
  | neg expr ih =>
    intro cursor result hresult
    unfold leftmostExpr at hresult ⊢
    obtain ⟨operand, hoperand, rfl⟩ := Option.map_eq_some_iff.mp hresult
    rw [ih hoperand]
    rfl
  | binary op left right ihl ihr =>
    intro cursor result hresult
    unfold leftmostExpr at hresult ⊢
    cases hleft : resolved.leftmostExpr eval owner (cursor ++ [.expressionLeft]) left with
    | none =>
      rw [hleft] at hresult
      cases hresult
    | some found =>
      rw [hleft] at hresult
      rw [ihl hleft]
      cases found with
      | error e => exact hresult
      | ok l =>
        obtain ⟨operand, hoperand, rfl⟩ := Option.map_eq_some_iff.mp hresult
        dsimp only
        rw [ihr hoperand]
        rfl

theorem leftmost_succ {fuel : Nat} {id : DeclId} {result : ConstResult}
    (h : resolved.leftmost fuel id = some result) :
    resolved.leftmost (fuel + 1) id = some result := by
  induction fuel generalizing id result with
  | zero => cases h
  | succ fuel ih =>
    unfold leftmost at h ⊢
    cases hdecl : resolved.program.constDecl id with
    | none =>
      rw [hdecl] at h
      exact h
    | some ct =>
      rw [hdecl] at h
      dsimp only at h ⊢
      split_ifs at h ⊢ with hty
      · exact leftmostExpr_mono (fun id result hresult => ih hresult) h
      · exact h

theorem leftmost_mono {fuel fuel' : Nat} (hle : fuel ≤ fuel') {id : DeclId} {result : ConstResult}
    (h : resolved.leftmost fuel id = some result) : resolved.leftmost fuel' id = some result := by
  induction hle with
  | refl => exact h
  | step _ ih => exact leftmost_succ ih

theorem leftmost_unique {fuel fuel' : Nat} {id : DeclId} {result result' : ConstResult}
    (h : resolved.leftmost fuel id = some result)
    (h' : resolved.leftmost fuel' id = some result') : result = result' := by
  have hmax := leftmost_mono (Nat.le_max_left fuel fuel') h
  have hmax' := leftmost_mono (Nat.le_max_right fuel fuel') h'
  exact Option.some.inj (hmax.symm.trans hmax')

theorem Outcome.unique {id : DeclId} {result result' : ConstResult}
    (h : resolved.Outcome id result) (h' : resolved.Outcome id result') : result = result' := by
  obtain ⟨fuel, hfuel⟩ | ⟨rfl, hnone⟩ := h
  · obtain ⟨fuel', hfuel'⟩ | ⟨rfl, hnone⟩ := h'
    · exact leftmost_unique hfuel hfuel'
    · rw [hnone fuel] at hfuel
      cases hfuel
  · obtain ⟨fuel', hfuel'⟩ | ⟨rfl, -⟩ := h'
    · rw [hnone fuel'] at hfuel'
      cases hfuel'
    · rfl

/-! ## what terminates -/

/-- a terminating evaluation of `id` has evaluated `id'` with less fuel -/
def Demands (resolved : ResolvedModules) (id id' : DeclId) : Prop :=
  ∀ fuel, (resolved.leftmost fuel id).isSome = true →
    ∃ less < fuel, (resolved.leftmost less id').isSome = true

theorem Demands.trans {id id' id'' : DeclId} (h : resolved.Demands id id')
    (h' : resolved.Demands id' id'') : resolved.Demands id id'' := by
  intro fuel hfuel
  obtain ⟨less, hless, hsome⟩ := h fuel hfuel
  obtain ⟨least, hleast, hsome⟩ := h' less hsome
  exact ⟨least, hleast.trans hless, hsome⟩

/-- a constant that demands itself does not terminate -/
theorem Demands.diverges {id : DeclId} (h : resolved.Demands id id) (fuel : Nat) :
    resolved.leftmost fuel id = none := by
  induction fuel using Nat.strong_induction_on with
  | h fuel ih =>
    by_contra hne
    obtain ⟨less, hless, hsome⟩ := h fuel (Option.isSome_iff_ne_none.mpr hne)
    rw [ih less hless] at hsome
    cases hsome

theorem apply_ne_cycle (op : BinaryOp) (l r : Int) : op.apply l r ≠ .error .cycle := by
  intro h
  cases op <;> unfold BinaryOp.apply at h <;> simp only at h
  all_goals
    first
    | (split_ifs at h
       · cases h
       · unfold okOr at h; split at h <;> cases h)
    | (unfold okOr at h; split at h <;> cases h)
    | cases h

theorem leftmostExpr_ne_cycle {eval : DeclId → Option ConstResult}
    (h : ∀ id, eval id ≠ some (.error .cycle)) {owner : DeclId} {expr : ConstExpr} :
    ∀ {cursor : List ChildEdge},
      resolved.leftmostExpr eval owner cursor expr ≠ some (.error .cycle) := by
  induction expr with
  | int value =>
    intro cursor hcycle
    cases hcycle
  | other =>
    intro cursor hcycle
    cases hcycle
  | identifier name =>
    intro cursor hcycle
    unfold leftmostExpr at hcycle
    cases hsite : resolved.constSite owner cursor with
    | none =>
      rw [hsite] at hcycle
      cases hcycle
    | some id =>
      rw [hsite] at hcycle
      exact h id hcycle
  | neg expr ih =>
    intro cursor hcycle
    unfold leftmostExpr at hcycle
    obtain ⟨operand, hoperand, hcycle⟩ := Option.map_eq_some_iff.mp hcycle
    cases operand with
    | error e =>
      have he : e = .cycle := Except.error.inj hcycle
      exact ih (he ▸ hoperand)
    | ok value =>
      have hneg : okOr (checked (-value)) ConstIntError.overflow = .error .cycle := hcycle
      unfold okOr at hneg
      split at hneg <;> cases hneg
  | binary op left right ihl ihr =>
    intro cursor hcycle
    unfold leftmostExpr at hcycle
    cases hleft : resolved.leftmostExpr eval owner (cursor ++ [.expressionLeft]) left with
    | none =>
      rw [hleft] at hcycle
      cases hcycle
    | some found =>
      rw [hleft] at hcycle
      cases found with
      | error e =>
        have he : e = .cycle := Except.error.inj (Option.some.inj hcycle)
        exact ihl (he ▸ hleft)
      | ok l =>
        obtain ⟨operand, hoperand, hcycle⟩ := Option.map_eq_some_iff.mp hcycle
        cases operand with
        | error e =>
          have he : e = .cycle := Except.error.inj hcycle
          exact ihr (he ▸ hoperand)
        | ok r => exact apply_ne_cycle op l r hcycle

theorem leftmost_ne_cycle (fuel : Nat) (id : DeclId) :
    resolved.leftmost fuel id ≠ some (.error .cycle) := by
  induction fuel generalizing id with
  | zero =>
    intro h
    cases h
  | succ fuel ih =>
    intro h
    unfold leftmost at h
    split at h
    · cases h
    · split_ifs at h
      · exact leftmostExpr_ne_cycle ih h
      · cases h

theorem Outcome.cycle_iff {id : DeclId} {result : ConstResult} (h : resolved.Outcome id result) :
    result = .error .cycle ↔ ∀ fuel, resolved.leftmost fuel id = none := by
  constructor
  · rintro rfl
    obtain ⟨fuel, hfuel⟩ | ⟨-, hnone⟩ := h
    · exact absurd hfuel (leftmost_ne_cycle fuel id)
    · exact hnone
  · intro hnone
    obtain ⟨fuel, hfuel⟩ | ⟨hcycle, -⟩ := h
    · rw [hnone fuel] at hfuel
      cases hfuel
    · exact hcycle

/-! ## cached evaluation -/

/-- the same for an expression of `owner` -/
def ExprOutcome (resolved : ResolvedModules) (owner : DeclId) (cursor : List ChildEdge)
    (expr : ConstExpr) (result : ConstResult) : Prop :=
  (∃ fuel, resolved.leftmostExpr (resolved.leftmost fuel) owner cursor expr = some result) ∨
    (result = .error .cycle ∧
      ∀ fuel, resolved.leftmostExpr (resolved.leftmost fuel) owner cursor expr = none)

theorem leftmostExpr_unique {owner : DeclId} {cursor : List ChildEdge} {expr : ConstExpr}
    {fuel fuel' : Nat} {result result' : ConstResult}
    (h : resolved.leftmostExpr (resolved.leftmost fuel) owner cursor expr = some result)
    (h' : resolved.leftmostExpr (resolved.leftmost fuel') owner cursor expr = some result') :
    result = result' := by
  have hmax := leftmostExpr_mono
    (fun _ _ hget => leftmost_mono (Nat.le_max_left fuel fuel') hget) h
  have hmax' := leftmostExpr_mono
    (fun _ _ hget => leftmost_mono (Nat.le_max_right fuel fuel') hget) h'
  exact Option.some.inj (hmax.symm.trans hmax')

/-- an expression with a value is evaluated with some amount of fuel -/
theorem ExprOutcome.ok {owner : DeclId} {cursor : List ChildEdge} {expr : ConstExpr} {value : Int}
    (h : resolved.ExprOutcome owner cursor expr (.ok value)) :
    ∃ fuel, resolved.leftmostExpr (resolved.leftmost fuel) owner cursor expr =
      some (.ok value) := by
  obtain hfuel | ⟨hcycle, -⟩ := h
  · exact hfuel
  · cases hcycle

theorem ExprOutcome.neg {owner : DeclId} {cursor : List ChildEdge} {expr : ConstExpr}
    {result : ConstResult} (h : resolved.ExprOutcome owner (cursor ++ [.expression]) expr result) :
    resolved.ExprOutcome owner cursor (.neg expr)
      (result >>= fun value => okOr (checked (-value)) .overflow) := by
  obtain ⟨fuel, hfuel⟩ | ⟨rfl, hnone⟩ := h
  · refine Or.inl ⟨fuel, ?_⟩
    rw [leftmostExpr, hfuel]
    rfl
  · refine Or.inr ⟨rfl, fun fuel => ?_⟩
    rw [leftmostExpr, hnone fuel]
    rfl

theorem ExprOutcome.binary_left {owner : DeclId} {cursor : List ChildEdge} {op : BinaryOp}
    {left right : ConstExpr} {e : ConstIntError}
    (h : resolved.ExprOutcome owner (cursor ++ [.expressionLeft]) left (.error e)) :
    resolved.ExprOutcome owner cursor (.binary op left right) (.error e) := by
  obtain ⟨fuel, hfuel⟩ | ⟨hcycle, hnone⟩ := h
  · refine Or.inl ⟨fuel, ?_⟩
    rw [leftmostExpr, hfuel]
  · refine Or.inr ⟨hcycle, fun fuel => ?_⟩
    rw [leftmostExpr, hnone fuel]

theorem ExprOutcome.binary {owner : DeclId} {cursor : List ChildEdge} {op : BinaryOp}
    {left right : ConstExpr} {l : Int} {result : ConstResult}
    (hleft : resolved.ExprOutcome owner (cursor ++ [.expressionLeft]) left (.ok l))
    (hright : resolved.ExprOutcome owner (cursor ++ [.expressionRight]) right result) :
    resolved.ExprOutcome owner cursor (.binary op left right)
      (result >>= fun r => op.apply l r) := by
  obtain ⟨fuel, hfuel⟩ := hleft.ok
  obtain ⟨fuel', hfuel'⟩ | ⟨rfl, hnone⟩ := hright
  · refine Or.inl ⟨max fuel fuel', ?_⟩
    have hl := leftmostExpr_mono
      (fun _ _ hget => leftmost_mono (Nat.le_max_left fuel fuel') hget) hfuel
    have hr := leftmostExpr_mono
      (fun _ _ hget => leftmost_mono (Nat.le_max_right fuel fuel') hget) hfuel'
    rw [leftmostExpr, hl]
    dsimp only
    rw [hr]
    rfl
  · refine Or.inr ⟨rfl, fun other => ?_⟩
    rw [leftmostExpr]
    cases hother : resolved.leftmostExpr (resolved.leftmost other) owner
        (cursor ++ [.expressionLeft]) left with
    | none => rfl
    | some found =>
      obtain rfl := leftmostExpr_unique hfuel hother
      dsimp only
      rw [hnone other]
      rfl

/-- every cached result is the outcome of its constant -/
def CacheExact (resolved : ResolvedModules) (cache : ConstCache) : Prop :=
  ∀ id result, cache.get id = some result → resolved.Outcome id result

theorem CacheExact.empty : resolved.CacheExact ∅ := by
  intro id result h
  cases h

theorem CacheExact.insert {cache : ConstCache} (h : resolved.CacheExact cache) {id : DeclId}
    {result : ConstResult} (hresult : resolved.Outcome id result) :
    resolved.CacheExact (cache.insert id result) := by
  intro id' result' hget
  rw [BTreeMap.get_insert] at hget
  split_ifs at hget with heq
  · rw [← Option.some.inj hget, heq]
    exact hresult
  · exact h id' result' hget

/-- a terminating evaluation of `owner` has evaluated this expression of it with less fuel -/
def DemandsExpr (resolved : ResolvedModules) (owner : DeclId) (cursor : List ChildEdge)
    (expr : ConstExpr) : Prop :=
  ∀ fuel, (resolved.leftmost fuel owner).isSome = true → ∃ less < fuel,
    (resolved.leftmostExpr (resolved.leftmost less) owner cursor expr).isSome = true

theorem DemandsExpr.neg {owner : DeclId} {cursor : List ChildEdge} {expr : ConstExpr}
    (h : resolved.DemandsExpr owner cursor (.neg expr)) :
    resolved.DemandsExpr owner (cursor ++ [.expression]) expr := by
  intro fuel hfuel
  obtain ⟨less, hless, hsome⟩ := h fuel hfuel
  refine ⟨less, hless, ?_⟩
  rw [leftmostExpr, Option.isSome_map] at hsome
  exact hsome

theorem DemandsExpr.left {owner : DeclId} {cursor : List ChildEdge} {op : BinaryOp}
    {left right : ConstExpr} (h : resolved.DemandsExpr owner cursor (.binary op left right)) :
    resolved.DemandsExpr owner (cursor ++ [.expressionLeft]) left := by
  intro fuel hfuel
  obtain ⟨less, hless, hsome⟩ := h fuel hfuel
  refine ⟨less, hless, ?_⟩
  rw [leftmostExpr] at hsome
  split at hsome
  next => cases hsome
  next e hleft => rw [hleft]; rfl
  next l hleft => rw [hleft]; rfl

theorem DemandsExpr.right {owner : DeclId} {cursor : List ChildEdge} {op : BinaryOp}
    {left right : ConstExpr} (h : resolved.DemandsExpr owner cursor (.binary op left right))
    {l : Int} (hleft : resolved.ExprOutcome owner (cursor ++ [.expressionLeft]) left (.ok l)) :
    resolved.DemandsExpr owner (cursor ++ [.expressionRight]) right := by
  intro fuel hfuel
  obtain ⟨less, hless, hsome⟩ := h fuel hfuel
  obtain ⟨enough, henough⟩ := hleft.ok
  refine ⟨less, hless, ?_⟩
  rw [leftmostExpr] at hsome
  split at hsome
  next => cases hsome
  next e hother => cases leftmostExpr_unique henough hother
  next => rwa [Option.isSome_map] at hsome

theorem evaluateExpr_outcome {eval : DeclId → ConstCache → ConstResult × ConstCache}
    {owner : DeclId} (heval : ∀ id cache, resolved.Demands owner id → resolved.CacheExact cache →
      resolved.Outcome id (eval id cache).1 ∧ resolved.CacheExact (eval id cache).2)
    {expr : ConstExpr} : ∀ {cursor : List ChildEdge} {cache : ConstCache},
      resolved.DemandsExpr owner cursor expr → resolved.CacheExact cache →
      resolved.ExprOutcome owner cursor expr
          (resolved.evaluateExpr eval owner cursor expr cache).1 ∧
        resolved.CacheExact (resolved.evaluateExpr eval owner cursor expr cache).2 := by
  induction expr with
  | int value => exact fun _ hcache => ⟨Or.inl ⟨0, rfl⟩, hcache⟩
  | other => exact fun _ hcache => ⟨Or.inl ⟨0, rfl⟩, hcache⟩
  | identifier name =>
    intro cursor cache hdemands hcache
    unfold evaluateExpr
    cases hsite : resolved.constSite owner cursor with
    | none =>
      refine ⟨Or.inl ⟨0, ?_⟩, hcache⟩
      rw [leftmostExpr, hsite]
    | some id =>
      have hexpr : ∀ fuel, resolved.leftmostExpr (resolved.leftmost fuel) owner cursor
          (.identifier name) = resolved.leftmost fuel id := by
        intro fuel
        rw [leftmostExpr, hsite]
      have hdemand : resolved.Demands owner id := by
        intro fuel hfuel
        obtain ⟨less, hless, hsome⟩ := hdemands fuel hfuel
        rw [hexpr] at hsome
        exact ⟨less, hless, hsome⟩
      obtain ⟨houtcome, hexact⟩ := heval id cache hdemand hcache
      refine ⟨?_, hexact⟩
      unfold ExprOutcome
      simp only [hexpr]
      exact houtcome
  | neg expr ih =>
    intro cursor cache hdemands hcache
    obtain ⟨houtcome, hexact⟩ := ih hdemands.neg hcache
    exact ⟨houtcome.neg, hexact⟩
  | binary op left right ihl ihr =>
    intro cursor cache hdemands hcache
    obtain ⟨houtcome, hexact⟩ := ihl hdemands.left hcache
    cases hleft : (resolved.evaluateExpr eval owner (cursor ++ [.expressionLeft]) left cache).1 with
    | error e =>
      rw [hleft] at houtcome
      simp only [evaluateExpr, hleft]
      exact ⟨houtcome.binary_left, hexact⟩
    | ok l =>
      rw [hleft] at houtcome
      obtain ⟨houtcome', hexact'⟩ := ihr (hdemands.right houtcome) hexact
      simp only [evaluateExpr, hleft]
      exact ⟨houtcome.binary houtcome', hexact'⟩

theorem ExprOutcome.outcome {id : DeclId} {ct : ConstDecl}
    (hdecl : resolved.program.constDecl id = some ct) (hty : ct.ty = .int) {result : ConstResult}
    (h : resolved.ExprOutcome id [] ct.value result) : resolved.Outcome id result := by
  have hsucc : ∀ fuel, resolved.leftmost (fuel + 1) id =
      resolved.leftmostExpr (resolved.leftmost fuel) id [] ct.value := by
    intro fuel
    rw [leftmost, hdecl]
    exact if_pos hty
  obtain ⟨fuel, hfuel⟩ | ⟨hcycle, hnone⟩ := h
  · exact Or.inl ⟨fuel + 1, (hsucc fuel).trans hfuel⟩
  · refine Or.inr ⟨hcycle, fun fuel => ?_⟩
    cases fuel with
    | zero => rfl
    | succ fuel => exact (hsucc fuel).trans (hnone fuel)

/-- a constant that is met again while it is evaluated demands itself, so that the cycle that is
reported, and cached for every constant on the way back to it, is the outcome of each -/
theorem evaluate_outcome {visiting : BTreeSet DeclId} {id : DeclId} {cache : ConstCache}
    (hvisiting : ∀ x ∈ visiting, resolved.Demands x id) (hcache : resolved.CacheExact cache) :
    resolved.Outcome id (resolved.evaluate visiting id cache).1 ∧
      resolved.CacheExact (resolved.evaluate visiting id cache).2 := by
  generalize hsize : (resolved.unvisited visiting).card = size
  induction size using Nat.strong_induction_on generalizing visiting id cache with
  | h size ih =>
    unfold evaluate
    cases hget : cache.get id with
    | some value => exact ⟨hcache id value hget, hcache⟩
    | none =>
      by_cases hmem : id ∈ visiting
      · rw [dif_pos hmem]
        exact ⟨Or.inr ⟨rfl, (hvisiting id hmem).diverges⟩, hcache⟩
      · dsimp only
        rw [dif_neg hmem]
        split
        · rename_i hdecl
          have houtcome : resolved.Outcome id (.error .invalidLiteral) := by
            refine Or.inl ⟨1, ?_⟩
            rw [leftmost, hdecl]
          exact ⟨houtcome, hcache.insert houtcome⟩
        · rename_i ct hdecl
          by_cases hty : ct.ty = .int
          · rw [if_pos hty]
            have hdemands : resolved.DemandsExpr id [] ct.value := by
              intro fuel hfuel
              cases fuel with
              | zero => cases hfuel
              | succ fuel =>
                rw [leftmost, hdecl] at hfuel
                dsimp only at hfuel
                rw [if_pos hty] at hfuel
                exact ⟨fuel, Nat.lt_succ_self fuel, hfuel⟩
            have hnamed : ∀ id' cache, resolved.Demands id id' → resolved.CacheExact cache →
                resolved.Outcome id' (resolved.evaluate (insert id visiting) id' cache).1 ∧
                  resolved.CacheExact (resolved.evaluate (insert id visiting) id' cache).2 := by
              intro id' cache' hdemand hcache'
              refine ih _ (hsize ▸ resolved.unvisited_lt hmem hdecl) (fun x hx => ?_) hcache' rfl
              obtain rfl | hx := BTreeSet.mem_insert.mp hx
              · exact hdemand
              · exact (hvisiting x hx).trans hdemand
            obtain ⟨hexpr, hexact⟩ := evaluateExpr_outcome hnamed hdemands hcache
            have houtcome := hexpr.outcome hdecl hty
            exact ⟨houtcome, hexact.insert houtcome⟩
          · rw [if_neg hty]
            have houtcome : resolved.Outcome id (.error (.wrongType ct.ty.toSource)) := by
              refine Or.inl ⟨1, ?_⟩
              rw [leftmost, hdecl]
              exact if_neg hty
            exact ⟨houtcome, hcache.insert houtcome⟩

/-! ## any order -/

theorem evaluate_empty_outcome (id : DeclId) {cache : ConstCache}
    (hcache : resolved.CacheExact cache) :
    resolved.Outcome id (resolved.evaluate ∅ id cache).1 ∧
      resolved.CacheExact (resolved.evaluate ∅ id cache).2 :=
  evaluate_outcome (fun x hx => absurd hx (BTreeSet.not_mem_empty x)) hcache

variable (resolved) in
/-- constants evaluated one after another -/
def evaluateAll : List DeclId → ConstCache → List ConstResult × ConstCache
  | [], cache => ([], cache)
  | id :: ids, cache =>
    let result := resolved.evaluate ∅ id cache
    let rest := evaluateAll ids result.2
    (result.1 :: rest.1, rest.2)

theorem evaluateAll_outcome {ids : List DeclId} {cache : ConstCache}
    (hcache : resolved.CacheExact cache) :
    List.Forall₂ resolved.Outcome ids (resolved.evaluateAll ids cache).1 ∧
      resolved.CacheExact (resolved.evaluateAll ids cache).2 := by
  induction ids generalizing cache with
  | nil => exact ⟨.nil, hcache⟩
  | cons id ids ih =>
    obtain ⟨houtcome, hexact⟩ := evaluate_empty_outcome id hcache
    obtain ⟨hrest, hexact'⟩ := ih hexact
    exact ⟨.cons houtcome hrest, hexact'⟩

/-- the values kept of the entries `done` -/
structure Kept (resolved : ResolvedModules) (done : List (DeclId × String))
    (found : BTreeMap String ConstResult × ConstCache) : Prop where
  exact : resolved.CacheExact found.2
  sound : ∀ name result, found.1.get name = some result →
    ∃ id, (id, name) ∈ done ∧ id.kind = .const ∧ resolved.Outcome id result
  complete : ∀ id name, (id, name) ∈ done → id.kind = .const → (found.1.get name).isSome = true

theorem Kept.step {done : List (DeclId × String)}
    {found : BTreeMap String ConstResult × ConstCache} (h : resolved.Kept done found)
    (entry : DeclId × String) :
    resolved.Kept (done ++ [entry]) (ConstResolver.keepValue resolved found entry) := by
  have hlast : entry ∈ done ++ [entry] := List.mem_append_right _ List.mem_cons_self
  unfold ConstResolver.keepValue
  split_ifs with hkind
  · obtain ⟨houtcome, hexact⟩ := evaluate_empty_outcome entry.1 h.exact
    refine ⟨hexact, fun name result hget => ?_, fun id name hmem hconst => ?_⟩
    · dsimp only at hget
      rw [BTreeMap.get_insert] at hget
      split_ifs at hget with hname
      · obtain rfl := Option.some.inj hget
        rw [hname]
        exact ⟨entry.1, hlast, hkind, houtcome⟩
      · obtain ⟨id, hmem, hrest⟩ := h.sound name result hget
        exact ⟨id, List.mem_append_left _ hmem, hrest⟩
    · dsimp only
      rw [BTreeMap.get_insert]
      split_ifs with hname
      · rfl
      · obtain hmem | hmem := List.mem_append.mp hmem
        · exact h.complete id name hmem hconst
        · exact absurd (congrArg Prod.snd (List.mem_singleton.mp hmem)) hname
  · refine ⟨h.exact, fun name result hget => ?_, fun id name hmem hconst => ?_⟩
    · obtain ⟨id, hmem, hrest⟩ := h.sound name result hget
      exact ⟨id, List.mem_append_left _ hmem, hrest⟩
    · obtain hmem | hmem := List.mem_append.mp hmem
      · exact h.complete id name hmem hconst
      · rw [← List.mem_singleton.mp hmem] at hkind
        exact absurd hconst hkind

theorem kept_foldl {done entries : List (DeclId × String)}
    {found : BTreeMap String ConstResult × ConstCache} (h : resolved.Kept done found) :
    resolved.Kept (done ++ entries) (entries.foldl (ConstResolver.keepValue resolved) found) := by
  induction entries generalizing done found with
  | nil =>
    rw [List.append_nil]
    exact h
  | cons entry entries ih =>
    rw [List.foldl_cons, List.append_cons]
    exact ih (h.step entry)

theorem kept_fromResolved (names : BTreeMap DeclId String) :
    ∃ cache, resolved.Kept names.entries
      ((ConstResolver.fromResolved resolved names).values, cache) := by
  have hempty : resolved.Kept [] ((∅ : BTreeMap String ConstResult), (∅ : ConstCache)) := by
    refine ⟨CacheExact.empty, fun _ _ hget => (by cases hget), fun _ _ hmem => ?_⟩
    exact absurd hmem List.not_mem_nil
  have hkept := @kept_foldl resolved [] names.entries _ hempty
  exact ⟨_, hkept⟩

/-- Every constant has one outcome: the result of its leftmost evaluation under checked arithmetic,
which is a cycle exactly when that evaluation does not terminate.  Constants that are evaluated one
after another, in any order and with what earlier evaluations cached, have their outcomes, and so
have the values that a resolver keeps under output names. -/
theorem constants_contextFree (resolved : ResolvedModules) :
    ∃ meaning : DeclId → ConstResult,
      (∀ id, resolved.Outcome id (meaning id)) ∧
      (∀ id, meaning id = .error .cycle ↔ ∀ fuel, resolved.leftmost fuel id = none) ∧
      (∀ ids, (resolved.evaluateAll ids ∅).1 = ids.map meaning) ∧
      (∀ ids id result, (resolved.evaluateAll ids ∅).2.get id = some result →
        result = meaning id) ∧
      ∀ (names : BTreeMap DeclId String) (id : DeclId) (name : String),
        names.get id = some name → id.kind = .const →
        ∃ id', names.get id' = some name ∧ id'.kind = .const ∧
          (ConstResolver.fromResolved resolved names).resolveInt name = meaning id' := by
  have houtcome : ∀ id, resolved.Outcome id (resolved.evaluate ∅ id ∅).1 := fun id =>
    (evaluate_empty_outcome id CacheExact.empty).1
  refine ⟨fun id => (resolved.evaluate ∅ id ∅).1, houtcome, fun id => (houtcome id).cycle_iff,
    fun ids => ?_, fun ids id result hget => ?_, fun names id name hget hconst => ?_⟩
  · have hall := (@evaluateAll_outcome resolved ids ∅ CacheExact.empty).1
    generalize (resolved.evaluateAll ids ∅).1 = results at hall
    induction hall with
    | nil => rfl
    | cons hhead _ ih => rw [List.map_cons, ← ih, hhead.unique (houtcome _)]
  · have hexact := (@evaluateAll_outcome resolved ids ∅ CacheExact.empty).2
    exact (hexact id result hget).unique (houtcome id)
  · obtain ⟨cache, hkept⟩ := @kept_fromResolved resolved names
    have hsome := hkept.complete id name (BTreeMap.mem_entries.mpr hget) hconst
    obtain ⟨result, hresult⟩ := Option.isSome_iff_exists.mp hsome
    obtain ⟨id', hmem, hconst', hfound⟩ := hkept.sound name result hresult
    refine ⟨id', BTreeMap.mem_entries.mp hmem, hconst', ?_⟩
    have hresult' : (ConstResolver.fromResolved resolved names).values.get name = some result :=
      hresult
    unfold ConstResolver.resolveInt
    rw [hresult', Option.getD_some]
    exact hfound.unique (houtcome id')

end ResolvedModules

end Argent.Resolve
