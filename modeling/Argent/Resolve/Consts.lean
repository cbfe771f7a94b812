import Argent.Resolve.Program

/-!
# Integer constants

`compiler/model/consts.rs`: the values of the integer constants of a program.  A constant is
evaluated with the constants its expression names, a result is cached by declaration, and a constant
that is met again while it is evaluated is a cycle.

* `evaluateExpr`, `evaluate`       the evaluation of one constant;
* `ConstValue`                   what a constant means: its expression has this value;
* `evaluate_spec`                **a constant is evaluated to the value it has, and to an error when it
                                 has none**;
* `ConstResolver`                the results under the output names of the constants.
-/

set_option linter.unusedSectionVars false
set_option linter.unusedVariables false

namespace Argent.Resolve
open Argent.Fallible

inductive ConstIntError where
  | unknown
  | wrongType (actual : String)
  | invalidLiteral
  | cycle
  | overflow
  | divisionByZero
deriving Repr, DecidableEq

/-! ## integers -/

/-- `i64::MIN` -/
def I64_MIN : Int := -2 ^ 63

/-- `i64::MAX` -/
def I64_MAX : Int := 2 ^ 63 - 1

/-- the result of a checked operation, when it is an `i64` -/
def checked (value : Int) : Option Int :=
  if I64_MIN ≤ value ∧ value ≤ I64_MAX then some value else none

/-- `checked_rem` overflows where `checked_div` does -/
def checkedRem (left right : Int) : Option Int :=
  if left = I64_MIN ∧ right = -1 then none else some (left.tmod right)

/-- an operator applied to the values of both sides; division rounds towards zero -/
def BinaryOp.apply (op : BinaryOp) (left right : Int) : Except ConstIntError Int :=
  match op with
  | .add => okOr (checked (left + right)) .overflow
  | .sub => okOr (checked (left - right)) .overflow
  | .mul => okOr (checked (left * right)) .overflow
  | .div => if right = 0 then .error .divisionByZero else okOr (checked (left.tdiv right)) .overflow
  | .mod => if right = 0 then .error .divisionByZero else okOr (checkedRem left right) .overflow
  | .other => .error .invalidLiteral

/-! ## evaluation -/

/-- the results so far -/
abbrev ConstCache := BTreeMap DeclId (Except ConstIntError Int)

/-- `TypeRef::new("int")` -/
def TypeRef.int : TypeRef := { name := "int" }

/-- the declaration of a constant -/
def ResolvedExports.constDecl (program : ResolvedExports) (id : DeclId) : Option ConstDecl :=
  if id.kind = .const then program.graph.modules[id.moduleId]?.bind (·.consts[id.index]?) else none

namespace ResolvedModules
variable (resolved : ResolvedModules)

/-- the declared constants -/
def constIds : List DeclId :=
  resolved.graph.modules.zipIdx.flatMap fun item =>
    (List.range item.1.consts.length).map fun index => ⟨item.2, .const, index⟩

theorem mem_constIds {id : DeclId} {ct : ConstDecl} (h : resolved.program.constDecl id = some ct) :
    id ∈ resolved.constIds := by
  unfold ResolvedExports.constDecl at h
  split_ifs at h with hkind
  obtain ⟨m, hmodule, hindex⟩ := Option.bind_eq_some_iff.mp h
  refine List.mem_flatMap.mpr ⟨(m, id.moduleId), List.mem_zipIdx_iff_getElem?.mpr hmodule, ?_⟩
  refine List.mem_map.mpr ⟨id.index, ?_, ?_⟩
  · exact List.mem_range.mpr (List.getElem?_eq_some_iff.mp hindex).1
  · rw [← hkind]

/-- the declared constants that are not being evaluated -/
def unvisited (visiting : BTreeSet DeclId) : Finset DeclId :=
  resolved.constIds.toFinset \ visiting.toFinset

theorem unvisited_lt {visiting : BTreeSet DeclId} {id : DeclId} {ct : ConstDecl}
    (hid : id ∉ visiting) (hdecl : resolved.program.constDecl id = some ct) :
    (resolved.unvisited (insert id visiting)).card < (resolved.unvisited visiting).card := by
  have hmem : id ∈ resolved.unvisited visiting := by
    unfold unvisited
    rw [Finset.mem_sdiff, BTreeSet.mem_toFinset, List.mem_toFinset]
    exact ⟨resolved.mem_constIds hdecl, hid⟩
  apply Finset.card_lt_card
  refine Finset.ssubset_iff_subset_ne.mpr ⟨fun x hx => ?_, fun heq => ?_⟩
  · unfold unvisited at hx ⊢
    rw [Finset.mem_sdiff, BTreeSet.mem_toFinset] at hx ⊢
    exact ⟨hx.1, fun hin => hx.2 (BTreeSet.mem_insert.mpr (.inr hin))⟩
  · rw [← heq] at hmem
    unfold unvisited at hmem
    rw [Finset.mem_sdiff, BTreeSet.mem_toFinset] at hmem
    exact hmem.2 (BTreeSet.mem_insert.mpr (.inl rfl))

/-- the constant that a name in the expression of `owner` was bound to -/
def constSite (owner : DeclId) (cursor : List ChildEdge) : Option DeclId :=
  match (resolved.bindings.get owner).bind fun bindings => bindings.sites cursor with
  | some (.declaration id) => if id.kind = .const then some id else none
  | _ => none

/-- the value of an expression; `eval` evaluates the constants it names -/
def evaluateExpr (eval : DeclId → ConstCache → Except ConstIntError Int × ConstCache)
    (owner : DeclId) :
    List ChildEdge → ConstExpr → ConstCache → Except ConstIntError Int × ConstCache
  | _, .int value, cache => (.ok value, cache)
  | cursor, .identifier _, cache =>
    match resolved.constSite owner cursor with
    | some id => eval id cache
    | none => (.error .invalidLiteral, cache)
  | cursor, .neg expr, cache =>
    let operand := evaluateExpr eval owner (cursor ++ [.expression]) expr cache
    (operand.1 >>= fun value => okOr (checked (-value)) .overflow, operand.2)
  | cursor, .binary op left right, cache =>
    let left := evaluateExpr eval owner (cursor ++ [.expressionLeft]) left cache
    match left.1 with
    | .error e => (.error e, left.2)
    | .ok l =>
      let right := evaluateExpr eval owner (cursor ++ [.expressionRight]) right left.2
      (right.1 >>= fun r => op.apply l r, right.2)
  | _, .other, cache => (.error .invalidLiteral, cache)

/-- the value of a constant; `visiting` are the constants whose evaluation led here -/
def evaluate (visiting : BTreeSet DeclId) (id : DeclId) (cache : ConstCache) :
    Except ConstIntError Int × ConstCache :=
  match cache.get id with
  | some value => (value, cache)
  | none =>
    if hvisiting : id ∈ visiting then (.error .cycle, cache)
    else
      match hdecl : resolved.program.constDecl id with
      | none => (.error .invalidLiteral, cache.insert id (.error .invalidLiteral))
      | some ct =>
        if ct.ty = .int then
          let result := resolved.evaluateExpr
            (fun id' cache => evaluate (insert id visiting) id' cache) id [] ct.value cache
          (result.1, result.2.insert id result.1)
        else (.error (.wrongType ct.ty.toSource),
          cache.insert id (.error (.wrongType ct.ty.toSource)))
termination_by (resolved.unvisited visiting).card
decreasing_by exact resolved.unvisited_lt hvisiting hdecl

end ResolvedModules

/-- integer values, cached by declaration identity and kept under output names -/
structure ConstResolver where
  values : BTreeMap String (Except ConstIntError Int)

namespace ConstResolver
variable (resolved : ResolvedModules)

/-- one declaration with its output name; a constant is evaluated and kept under its name -/
def keepValue (found : BTreeMap String (Except ConstIntError Int) × ConstCache)
    (entry : DeclId × String) : BTreeMap String (Except ConstIntError Int) × ConstCache :=
  if entry.1.kind = .const then
    let result := resolved.evaluate ∅ entry.1 found.2
    (found.1.insert entry.2 result.1, result.2)
  else found

def fromResolved (names : BTreeMap DeclId String) : ConstResolver :=
  ⟨(names.entries.foldl (keepValue resolved) (∅, ∅)).1⟩

def resolveInt (resolver : ConstResolver) (name : String) : Except ConstIntError Int :=
  (resolver.values.get name).getD (.error .unknown)

end ConstResolver

/-! ## what a constant means -/

namespace ResolvedModules
variable (resolved : ResolvedModules)

/-- the value of an expression at a place of the declaration `owner` -/
inductive ExprValue : DeclId → List ChildEdge → ConstExpr → Int → Prop
  | int (owner : DeclId) (cursor : List ChildEdge) (value : Int) :
      ExprValue owner cursor (.int value) value
  | identifier {owner id : DeclId} {cursor : List ChildEdge} {ct : ConstDecl} {value : Int}
      (name : String) : resolved.constSite owner cursor = some id →
      resolved.program.constDecl id = some ct → ct.ty = .int →
      ExprValue id [] ct.value value → ExprValue owner cursor (.identifier name) value
  | neg {owner : DeclId} {cursor : List ChildEdge} {expr : ConstExpr} {operand value : Int} :
      ExprValue owner (cursor ++ [.expression]) expr operand → checked (-operand) = some value →
      ExprValue owner cursor (.neg expr) value
  | binary {owner : DeclId} {cursor : List ChildEdge} {op : BinaryOp} {left right : ConstExpr}
      {l r value : Int} :
      ExprValue owner (cursor ++ [.expressionLeft]) left l →
      ExprValue owner (cursor ++ [.expressionRight]) right r → op.apply l r = .ok value →
      ExprValue owner cursor (.binary op left right) value

/-- an `int` constant whose expression has a value -/
def ConstValue (id : DeclId) (value : Int) : Prop :=
  ∃ ct, resolved.program.constDecl id = some ct ∧ ct.ty = .int ∧
    resolved.ExprValue id [] ct.value value

/-- the constants that an expression names -/
def mentions (owner : DeclId) : List ChildEdge → ConstExpr → List DeclId
  | cursor, .identifier _ => (resolved.constSite owner cursor).toList
  | cursor, .neg expr => mentions owner (cursor ++ [.expression]) expr
  | cursor, .binary _ left right =>
    mentions owner (cursor ++ [.expressionLeft]) left ++
      mentions owner (cursor ++ [.expressionRight]) right
  | _, .int _ => []
  | _, .other => []

/-- the expression of `id` names `id'` -/
def Reads (id id' : DeclId) : Prop :=
  ∃ ct, resolved.program.constDecl id = some ct ∧ id' ∈ resolved.mentions id [] ct.value

variable {resolved}

theorem constValue_iff {id : DeclId} {ct : ConstDecl}
    (hdecl : resolved.program.constDecl id = some ct) (hty : ct.ty = .int) {value : Int} :
    resolved.ConstValue id value ↔ resolved.ExprValue id [] ct.value value := by
  constructor
  · rintro ⟨ct', hct, _, hvalue⟩
    rwa [Option.some.inj (hdecl.symm.trans hct)]
  · exact fun hvalue => ⟨ct, hdecl, hty, hvalue⟩

theorem ExprValue.identifier_iff {owner id : DeclId} {cursor : List ChildEdge} {name : String}
    (hsite : resolved.constSite owner cursor = some id) {value : Int} :
    resolved.ExprValue owner cursor (.identifier name) value ↔ resolved.ConstValue id value := by
  constructor
  · intro h
    cases h with
    | identifier _ hsite' hdecl hty hvalue =>
      obtain rfl := Option.some.inj (hsite.symm.trans hsite')
      exact ⟨_, hdecl, hty, hvalue⟩
  · rintro ⟨ct, hdecl, hty, hvalue⟩
    exact .identifier name hsite hdecl hty hvalue

theorem ExprValue.acc {owner : DeclId} {cursor : List ChildEdge} {expr : ConstExpr} {value : Int}
    (h : resolved.ExprValue owner cursor expr value) :
    ∀ id ∈ resolved.mentions owner cursor expr, Acc (fun b a => resolved.Reads a b) id := by
  induction h with
  | int owner cursor value => exact fun id hid => absurd hid List.not_mem_nil
  | identifier name hsite hdecl hty hvalue ih =>
    intro id hid
    rw [mentions, hsite] at hid
    obtain rfl := List.mem_singleton.mp hid
    refine Acc.intro _ fun id' hreads => ?_
    obtain ⟨ct, hct, hmem⟩ := hreads
    obtain rfl := Option.some.inj (hdecl.symm.trans hct)
    exact ih id' hmem
  | neg _ _ ih => exact ih
  | binary _ _ _ ihl ihr =>
    intro id hid
    obtain hid | hid := List.mem_append.mp hid
    · exact ihl id hid
    · exact ihr id hid

/-- a constant that reads itself, directly or indirectly, has no value -/
theorem not_constValue_of_cycle {id : DeclId}
    (h : Relation.TransGen (fun b a => resolved.Reads a b) id id) (value : Int) :
    ¬ resolved.ConstValue id value := by
  rintro ⟨ct, hdecl, _, hvalue⟩
  have hacc : Acc (fun b a => resolved.Reads a b) id := by
    refine Acc.intro _ fun id' hreads => ?_
    obtain ⟨ct', hct, hmem⟩ := hreads
    obtain rfl := Option.some.inj (hdecl.symm.trans hct)
    exact hvalue.acc id' hmem
  exact Chain.not_acc_of_transGen h hacc

/-! ## an evaluation finds the value -/

/-- a result is the value that is meant, and an error when none is -/
def Agrees (result : Except ConstIntError Int) (Means : Int → Prop) : Prop :=
  ∀ value, result = .ok value ↔ Means value

theorem Agrees.error {e : ConstIntError} {Means : Int → Prop} (h : ∀ value, ¬ Means value) :
    Agrees (.error e) Means := by
  intro value
  constructor
  · intro hok
    cases hok
  · exact fun hmeans => absurd hmeans (h value)

variable (resolved) in
/-- every cached result agrees with its constant -/
def CacheSound (cache : ConstCache) : Prop :=
  ∀ id result, cache.get id = some result → Agrees result (resolved.ConstValue id)

theorem CacheSound.empty : resolved.CacheSound ∅ := by
  intro id result h
  cases h

theorem CacheSound.insert {cache : ConstCache} (h : resolved.CacheSound cache) {id : DeclId}
    {result : Except ConstIntError Int} (hresult : Agrees result (resolved.ConstValue id)) :
    resolved.CacheSound (cache.insert id result) := by
  intro id' result' hget
  rw [BTreeMap.get_insert] at hget
  split_ifs at hget with heq
  · rw [← Option.some.inj hget, heq]
    exact hresult
  · exact h id' result' hget

theorem evaluateExpr_spec {eval : DeclId → ConstCache → Except ConstIntError Int × ConstCache}
    {owner : DeclId} {expr : ConstExpr} : ∀ {cursor : List ChildEdge} {cache : ConstCache},
      (∀ id ∈ resolved.mentions owner cursor expr, ∀ cache, resolved.CacheSound cache →
        Agrees (eval id cache).1 (resolved.ConstValue id) ∧ resolved.CacheSound (eval id cache).2) →
      resolved.CacheSound cache →
      Agrees (resolved.evaluateExpr eval owner cursor expr cache).1
          (resolved.ExprValue owner cursor expr) ∧
        resolved.CacheSound (resolved.evaluateExpr eval owner cursor expr cache).2 := by
  induction expr with
  | int value =>
    intro cursor cache _ hcache
    refine ⟨fun value' => ⟨fun h => ?_, fun h => ?_⟩, hcache⟩
    · rw [← Except.ok.inj h]
      exact .int owner cursor value
    · cases h
      rfl
  | identifier name =>
    intro cursor cache heval hcache
    unfold evaluateExpr
    cases hsite : resolved.constSite owner cursor with
    | none =>
      refine ⟨Agrees.error fun value h => ?_, hcache⟩
      cases h with
      | identifier _ hsite' _ _ _ => rw [hsite] at hsite'; cases hsite'
    | some id =>
      have hmem : id ∈ resolved.mentions owner cursor (.identifier name) := by
        rw [mentions, hsite]
        exact List.mem_singleton_self id
      obtain ⟨hagrees, hsound⟩ := heval id hmem cache hcache
      exact ⟨fun value => (hagrees value).trans (ExprValue.identifier_iff hsite).symm, hsound⟩
  | neg expr ih =>
    intro cursor cache heval hcache
    obtain ⟨hagrees, hsound⟩ := ih heval hcache
    refine ⟨fun value => ⟨fun h => ?_, fun h => ?_⟩, hsound⟩
    · obtain ⟨operand, hoperand, hvalue⟩ := bind_eq_ok.mp h
      exact .neg ((hagrees operand).mp hoperand) (okOr_eq_ok.mp hvalue)
    · cases h with
      | neg hoperand hvalue =>
        exact bind_eq_ok.mpr ⟨_, (hagrees _).mpr hoperand, okOr_eq_ok.mpr hvalue⟩
  | binary op left right ihl ihr =>
    intro cursor cache heval hcache
    obtain ⟨hagreesl, hsoundl⟩ := @ihl (cursor ++ [.expressionLeft]) cache
      (fun id hid => heval id (List.mem_append_left _ hid)) hcache
    cases hleft : (resolved.evaluateExpr eval owner (cursor ++ [.expressionLeft]) left cache).1 with
    | error e =>
      simp only [evaluateExpr, hleft]
      refine ⟨Agrees.error fun value h => ?_, hsoundl⟩
      cases h with
      | binary hl _ _ => rw [(hagreesl _).mpr hl] at hleft; cases hleft
    | ok l =>
      obtain ⟨hagreesr, hsoundr⟩ := @ihr (cursor ++ [.expressionRight]) _
        (fun id hid => heval id (List.mem_append_right _ hid)) hsoundl
      simp only [evaluateExpr, hleft]
      refine ⟨fun value => ⟨fun h => ?_, fun h => ?_⟩, hsoundr⟩
      · obtain ⟨r, hr, hvalue⟩ := bind_eq_ok.mp h
        exact .binary ((hagreesl l).mp hleft) ((hagreesr r).mp hr) hvalue
      · cases h with
        | binary hl hr hvalue =>
          obtain rfl := Except.ok.inj (hleft.symm.trans ((hagreesl _).mpr hl))
          exact bind_eq_ok.mpr ⟨_, (hagreesr _).mpr hr, hvalue⟩
  | other =>
    intro cursor cache _ hcache
    refine ⟨Agrees.error fun value h => ?_, hcache⟩
    cases h

/-- **a constant is evaluated to the value it has, and to an error when it has none** -/
theorem evaluate_spec {visiting : BTreeSet DeclId} {id : DeclId} {cache : ConstCache}
    (hvisiting : ∀ x ∈ visiting, Relation.TransGen (fun b a => resolved.Reads a b) id x)
    (hcache : resolved.CacheSound cache) :
    Agrees (resolved.evaluate visiting id cache).1 (resolved.ConstValue id) ∧
      resolved.CacheSound (resolved.evaluate visiting id cache).2 := by
  generalize hsize : (resolved.unvisited visiting).card = size
  induction size using Nat.strong_induction_on generalizing visiting id cache with
  | h size ih =>
    unfold evaluate
    cases hget : cache.get id with
    | some value => exact ⟨hcache id value hget, hcache⟩
    | none =>
      by_cases hmem : id ∈ visiting
      · -- the constants being evaluated all read this one
        rw [dif_pos hmem]
        exact ⟨Agrees.error fun value => not_constValue_of_cycle (hvisiting id hmem) value, hcache⟩
      · dsimp only
        rw [dif_neg hmem]
        split
        · rename_i hdecl
          have hnone : ∀ value, ¬ resolved.ConstValue id value := by
            rintro value ⟨ct, hct, _⟩
            rw [hdecl] at hct
            cases hct
          exact ⟨Agrees.error hnone, hcache.insert (Agrees.error hnone)⟩
        · rename_i ct hdecl
          by_cases hty : ct.ty = .int
          · rw [if_pos hty]
            have hnamed : ∀ id' ∈ resolved.mentions id [] ct.value, ∀ cache,
                resolved.CacheSound cache →
                Agrees (resolved.evaluate (insert id visiting) id' cache).1
                    (resolved.ConstValue id') ∧
                  resolved.CacheSound (resolved.evaluate (insert id visiting) id' cache).2 := by
              intro id' hid' cache' hcache'
              refine ih _ (hsize ▸ resolved.unvisited_lt hmem hdecl) (fun x hx => ?_) hcache' rfl
              have hreads : resolved.Reads id id' := ⟨ct, hdecl, hid'⟩
              obtain rfl | hx := BTreeSet.mem_insert.mp hx
              · exact Relation.TransGen.single hreads
              · exact Relation.TransGen.head hreads (hvisiting x hx)
            obtain ⟨hagrees, hsound⟩ := evaluateExpr_spec hnamed hcache
            have hvalue : Agrees (resolved.evaluateExpr
                (fun id' cache => resolved.evaluate (insert id visiting) id' cache) id [] ct.value
                cache).1 (resolved.ConstValue id) :=
              fun value => (hagrees value).trans (constValue_iff hdecl hty).symm
            exact ⟨hvalue, hsound.insert hvalue⟩
          · rw [if_neg hty]
            have hnone : ∀ value, ¬ resolved.ConstValue id value := by
              rintro value ⟨ct', hct, hty', _⟩
              obtain rfl := Option.some.inj (hdecl.symm.trans hct)
              exact hty hty'
            exact ⟨Agrees.error hnone, hcache.insert (Agrees.error hnone)⟩

end ResolvedModules

/-! ## the results under output names -/

namespace ConstResolver
variable (resolved : ResolvedModules)

/-- under each name of a constant in `done` stands the result of a constant of this name -/
structure Keeps (done : List (DeclId × String))
    (found : BTreeMap String (Except ConstIntError Int) × ConstCache) : Prop where
  cached : resolved.CacheSound found.2
  kept : ∀ name result, found.1.get name = some result → ∃ id, (id, name) ∈ done ∧
    id.kind = .const ∧ ResolvedModules.Agrees result (resolved.ConstValue id)
  missing : ∀ name, found.1.get name = none → ∀ id, (id, name) ∈ done → id.kind ≠ .const

variable {resolved}

theorem Keeps.empty : Keeps resolved [] (∅, ∅) where
  cached := ResolvedModules.CacheSound.empty
  kept := by
    intro name result h
    cases h
  missing := fun _ _ _ h => absurd h List.not_mem_nil

theorem Keeps.step {done : List (DeclId × String)}
    {found : BTreeMap String (Except ConstIntError Int) × ConstCache}
    (h : Keeps resolved done found) (entry : DeclId × String) :
    Keeps resolved (done ++ [entry]) (keepValue resolved found entry) := by
  unfold keepValue
  by_cases hkind : entry.1.kind = .const
  · rw [if_pos hkind]
    have hnone : ∀ x ∈ (∅ : BTreeSet DeclId),
        Relation.TransGen (fun b a => resolved.Reads a b) entry.1 x :=
      fun x hx => absurd hx (BTreeSet.not_mem_empty x)
    obtain ⟨hagrees, hsound⟩ := ResolvedModules.evaluate_spec hnone h.cached
    refine ⟨hsound, fun name result hget => ?_, fun name hget id hid => ?_⟩
    · rw [BTreeMap.get_insert] at hget
      split_ifs at hget with heq
      · refine ⟨entry.1, ?_, hkind, Option.some.inj hget ▸ hagrees⟩
        rw [heq]
        exact List.mem_append_right _ (List.mem_singleton_self _)
      · obtain ⟨id, hid, hconst⟩ := h.kept name result hget
        exact ⟨id, List.mem_append_left _ hid, hconst⟩
    · rw [BTreeMap.get_insert] at hget
      split_ifs at hget with heq
      obtain hid | hid := List.mem_append.mp hid
      · exact h.missing name hget id hid
      · rw [← List.mem_singleton.mp hid] at heq
        exact absurd rfl heq
  · rw [if_neg hkind]
    refine ⟨h.cached, fun name result hget => ?_, fun name hget id hid => ?_⟩
    · obtain ⟨id, hid, hconst⟩ := h.kept name result hget
      exact ⟨id, List.mem_append_left _ hid, hconst⟩
    · obtain hid | hid := List.mem_append.mp hid
      · exact h.missing name hget id hid
      · rwa [← List.mem_singleton.mp hid] at hkind

theorem Keeps.foldl {l done : List (DeclId × String)}
    {found : BTreeMap String (Except ConstIntError Int) × ConstCache}
    (h : Keeps resolved done found) :
    Keeps resolved (done ++ l) (l.foldl (keepValue resolved) found) := by
  induction l generalizing done found with
  | nil =>
    rw [List.append_nil]
    exact h
  | cons entry l ih =>
    rw [List.append_cons]
    exact ih (h.step entry)

/-- **a name is resolved to the value of the constant with this output name** -/
theorem resolveInt_ok {names : BTreeMap DeclId String} {name : String}
    (hunique : ∀ id id', names.get id = some name → id.kind = .const →
      names.get id' = some name → id'.kind = .const → id = id') {value : Int} :
    (fromResolved resolved names).resolveInt name = .ok value ↔
      ∃ id, names.get id = some name ∧ id.kind = .const ∧ resolved.ConstValue id value := by
  have hkeeps : Keeps resolved names.entries
      (names.entries.foldl (keepValue resolved) (∅, ∅)) := Keeps.empty.foldl
  unfold resolveInt fromResolved
  cases hget : (names.entries.foldl (keepValue resolved) (∅, ∅)).1.get name with
  | none =>
    refine ⟨fun h => ?_, ?_⟩
    · cases h
    · rintro ⟨id, hid, hkind, _⟩
      exact absurd hkind (hkeeps.missing name hget id (BTreeMap.mem_entries.mpr hid))
  | some result =>
    obtain ⟨id, hid, hkind, hagrees⟩ := hkeeps.kept name result hget
    have hname := BTreeMap.mem_entries.mp hid
    refine (hagrees value).trans ⟨fun h => ⟨id, hname, hkind, h⟩, ?_⟩
    rintro ⟨id', hname', hkind', h⟩
    rwa [hunique id id' hname hkind hname' hkind']

theorem resolveInt_unknown {names : BTreeMap DeclId String} {name : String}
    (h : ∀ id, names.get id = some name → id.kind ≠ .const) :
    (fromResolved resolved names).resolveInt name = .error .unknown := by
  have hkeeps : Keeps resolved names.entries
      (names.entries.foldl (keepValue resolved) (∅, ∅)) := Keeps.empty.foldl
  unfold resolveInt fromResolved
  cases hget : (names.entries.foldl (keepValue resolved) (∅, ∅)).1.get name with
  | none => rfl
  | some result =>
    obtain ⟨id, hid, hkind, _⟩ := hkeeps.kept name result hget
    exact absurd hkind (h id (BTreeMap.mem_entries.mp hid))

end ConstResolver

end Argent.Resolve
