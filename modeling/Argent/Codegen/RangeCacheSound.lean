import Argent.Codegen.IndexesSound
import Argent.Codegen.InputReferences
import Argent.Codegen.RangeCache

/-!
# Caches hold the items of their range

* `CacheStatement.erase`      a prelude without its arrays;
* `execCaches_erase`          **a run with arrays is a run without them**;
* `appendAll_ok`              one iteration appends one item to each array;
* `rangedCachedInput_filled`  **the loop over a range appends its items in order**;
* `cachedInputPrelude_filled`      the caches after the preludes of an entry.
-/

set_option linter.unusedSectionVars false

namespace Argent.Codegen
open Argent.Model Argent.Sil Argent.Fallible

variable {run : BodyRun} {state out : CacheFrame} {statements : List CacheStatement}

/-! ## without the arrays -/

def CacheStatement.erase : CacheStatement → List SilStatement
  | .check statement => [statement]
  | .declare _ => []
  | .loop ident start stop maxIterations body _ => [.loop ident start stop maxIterations body]

theorem CacheFrame.of?_eq_some {frame : Frame} {arrays : String → Option (List BodyValue)}
    (h : CacheFrame.of? frame arrays = some out) : out.frame = frame ∧ out.arrays = arrays := by
  unfold CacheFrame.of? at h
  split_ifs at h
  rw [← Option.some_inj.mp h]
  exact ⟨rfl, rfl⟩

theorem CacheFrame.declare_eq_some {name : String} (h : state.declare name = some out) :
    state.arrays name = none ∧ out.frame = state.frame ∧
      out.arrays = Function.update state.arrays name (some []) := by
  unfold CacheFrame.declare at h
  split at h
  next => cases h
  next hnew => exact ⟨hnew, of?_eq_some h⟩

theorem append_eq_some {appended : String × Expr} (h : run.append state appended = some out) :
    ∃ items v, state.arrays appended.1 = some items ∧
      (run.inFrame state).eval appended.2 = some v ∧ out.frame = state.frame ∧
      out.arrays = Function.update state.arrays appended.1 (some (items ++ [v])) := by
  obtain ⟨items, hitems, h⟩ := Option.bind_eq_some_iff.mp h
  obtain ⟨v, hv, h⟩ := Option.bind_eq_some_iff.mp h
  obtain ⟨hframe, harrays⟩ := CacheFrame.of?_eq_some h
  exact ⟨items, v, hitems, hv, hframe, harrays⟩

theorem appendAll_frame {appends : List (String × Expr)}
    (h : appends.foldlM run.append state = some out) : out.frame = state.frame := by
  induction appends generalizing state with
  | nil =>
    cases h
    rfl
  | cons appended appends ih =>
    rw [List.foldlM_cons] at h
    obtain ⟨mid, hmid, h⟩ := Option.bind_eq_some_iff.mp h
    obtain ⟨_, _, _, _, hframe, _⟩ := append_eq_some hmid
    rw [ih h, hframe]

/-- a fold whose steps another one simulates -/
theorem foldlM_simulated {σ τ α : Type} {f : σ → α → Option σ} {g : τ → α → Option τ} {π : σ → τ}
    (hstep : ∀ s a s', f s a = some s' → g (π s) a = some (π s')) {l : List α} {s s' : σ}
    (h : l.foldlM f s = some s') : l.foldlM g (π s) = some (π s') := by
  induction l generalizing s with
  | nil =>
    cases h
    rfl
  | cons a l ih =>
    rw [List.foldlM_cons] at h ⊢
    obtain ⟨mid, hmid, h⟩ := Option.bind_eq_some_iff.mp h
    rw [hstep _ _ _ hmid]
    exact ih h

theorem exec_erase {statement : CacheStatement} (h : statement.exec run state = some out) :
    execAll run.ctx statement.erase state.frame = some out.frame := by
  cases statement with
  | check statement =>
    obtain ⟨frame, hframe, h⟩ := Option.bind_eq_some_iff.mp h
    rw [(CacheFrame.of?_eq_some h).1]
    exact execAll_cons.mpr ⟨frame, hframe, execAll_nil.mpr rfl⟩
  | declare name =>
    obtain ⟨-, hframe, -⟩ := CacheFrame.declare_eq_some h
    exact execAll_nil.mpr hframe
  | loop ident start stop maxIterations body appends =>
    refine execAll_cons.mpr ⟨out.frame, ?_, execAll_nil.mpr rfl⟩
    obtain ⟨v₁, hv₁, h⟩ := Option.bind_eq_some_iff.mp h
    obtain ⟨first, hfirst, h⟩ := Option.bind_eq_some_iff.mp h
    obtain ⟨v₂, hv₂, h⟩ := Option.bind_eq_some_iff.mp h
    obtain ⟨last, hlast, h⟩ := Option.bind_eq_some_iff.mp h
    obtain ⟨v₃, hv₃, h⟩ := Option.bind_eq_some_iff.mp h
    obtain ⟨most, hmost, h⟩ := Option.bind_eq_some_iff.mp h
    rw [SilStatement.exec]
    refine Option.bind_eq_some_iff.mpr ⟨v₁, hv₁, Option.bind_eq_some_iff.mpr ⟨first, hfirst, ?_⟩⟩
    refine Option.bind_eq_some_iff.mpr ⟨v₂, hv₂, Option.bind_eq_some_iff.mpr ⟨last, hlast, ?_⟩⟩
    refine Option.bind_eq_some_iff.mpr ⟨v₃, hv₃, Option.bind_eq_some_iff.mpr ⟨most, hmost, ?_⟩⟩
    refine foldlM_simulated (fun before iteration after hstep => ?_) h
    obtain ⟨inner, hinner, hstep⟩ := Option.bind_eq_some_iff.mp hstep
    obtain ⟨read, hread, hstep⟩ := Option.bind_eq_some_iff.mp hstep
    obtain ⟨inside, hinside, hstep⟩ := Option.bind_eq_some_iff.mp hstep
    obtain ⟨appended, happended, hstep⟩ := Option.bind_eq_some_iff.mp hstep
    refine Option.bind_eq_some_iff.mpr ⟨inner, hinner, Option.bind_eq_some_iff.mpr ⟨read, hread, ?_⟩⟩
    rw [(CacheFrame.of?_eq_some hstep).1, appendAll_frame happended,
      (CacheFrame.of?_eq_some hinside).1]

theorem execCaches_cons {statement : CacheStatement} :
    execCaches run (statement :: statements) state = some out ↔
      ∃ mid, statement.exec run state = some mid ∧ execCaches run statements mid = some out := by
  unfold execCaches
  rw [List.foldlM_cons]
  exact Option.bind_eq_some_iff

theorem execCaches_append {statements' : List CacheStatement} :
    execCaches run (statements ++ statements') state = some out ↔
      ∃ mid, execCaches run statements state = some mid ∧
        execCaches run statements' mid = some out := by
  unfold execCaches
  rw [List.foldlM_append]
  exact Option.bind_eq_some_iff

/-- **A run with arrays is a run of the statements without them.** -/
theorem execCaches_erase (h : execCaches run statements state = some out) :
    execAll run.ctx (statements.flatMap CacheStatement.erase) state.frame = some out.frame := by
  induction statements generalizing state with
  | nil =>
    cases h
    exact execAll_nil.mpr rfl
  | cons statement statements ih =>
    obtain ⟨mid, hmid, h⟩ := execCaches_cons.mp h
    rw [List.flatMap_cons]
    exact execAll_append.mpr ⟨mid.frame, exec_erase hmid, ih h⟩

theorem execCaches_extends (h : execCaches run statements state = some out) :
    state.frame.Extends out.frame :=
  execAll_extends (execCaches_erase h)

/-! ## the preludes without the arrays -/

theorem erase_checks (checks : List SilStatement) :
    (checks.map CacheStatement.check).flatMap CacheStatement.erase = checks := by
  rw [List.flatMap_map]
  exact List.flatMap_singleton' checks

section
variable {planned : PlannedEntryInputReference} {handle : String} {appends : List (String × Expr)}

/-- the arrays that are declared are those that are appended to -/
theorem rangeCacheDeclarations_eq (h : planned.rangeCacheAppend handle = .ok appends) :
    planned.rangeCacheDeclarations handle = (appends.map Prod.fst).map .declare := by
  unfold PlannedEntryInputReference.rangeCacheAppend at h
  unfold PlannedEntryInputReference.rangeCacheDeclarations
  split_ifs at h ⊢
  · obtain ⟨item, -, h⟩ := bind_eq_ok.mp h
    rw [← pure_eq_ok.mp h]
    rfl
  · have hnames : appends.map Prod.fst = planned.readableFields.map fun field =>
        hiddenConsumedInputFieldCacheName handle field.name := by
      refine map_of_mapM_ok h fun field appended happended => ?_
      obtain ⟨value, -, happended⟩ := bind_eq_ok.mp happended
      rw [← pure_eq_ok.mp happended]
    rw [hnames, List.map_map]
    rfl

theorem rangeCacheAppend_item (hcomplete : planned.hasCompleteRangeCache = true)
    (h : planned.rangeCacheAppend handle = .ok appends) : ∃ value, planned.rangeItem = .ok value ∧
      (hiddenConsumedInputAuthoredCacheName handle, value) ∈ appends := by
  unfold PlannedEntryInputReference.rangeCacheAppend at h
  rw [if_pos hcomplete] at h
  obtain ⟨value, hvalue, h⟩ := bind_eq_ok.mp h
  rw [← pure_eq_ok.mp h]
  exact ⟨value, hvalue, List.mem_singleton_self _⟩

/-- else each readable field has an array -/
theorem rangeCacheAppend_field (hcomplete : ¬ planned.hasCompleteRangeCache = true)
    (h : planned.rangeCacheAppend handle = .ok appends) {field : PlannedSourceField}
    (hfield : field ∈ planned.readableFields) : ∃ value, field.astValue = some value ∧
      (hiddenConsumedInputFieldCacheName handle field.name, value) ∈ appends := by
  unfold PlannedEntryInputReference.rangeCacheAppend at h
  rw [if_neg hcomplete] at h
  obtain ⟨appended, hmem, happended⟩ := mapM_ok_of_mem h hfield
  obtain ⟨value, hvalue, happended⟩ := bind_eq_ok.mp happended
  rw [← pure_eq_ok.mp happended] at hmem
  exact ⟨value, okOr_eq_ok.mp hvalue, hmem⟩

theorem erase_declarations (names : List String) :
    (names.map CacheStatement.declare).flatMap CacheStatement.erase = [] := by
  rw [List.flatMap_map]
  exact List.flatMap_eq_nil_iff.mpr fun _ _ => rfl

variable {bounds : RangeBounds} {start singletonCount slotOffset : Nat} {proof : InputTemplateProof}

theorem erase_rangedCachedInput
    (h : rangedCachedInput planned handle bounds start singletonCount slotOffset proof =
      .ok statements) : statements.flatMap CacheStatement.erase =
        rangedCurrentInput handle bounds start singletonCount slotOffset proof := by
  obtain ⟨appends, happends, h⟩ := bind_eq_ok.mp h
  rw [← pure_eq_ok.mp h, rangeCacheDeclarations_eq happends, List.flatMap_append,
    List.flatMap_append, erase_declarations]
  rfl

theorem erase_cachedInput {interaction : EntryInteraction}
    (h : cachedInput slotOffset interaction proof planned = .ok statements) :
    consumedInput slotOffset interaction proof = .ok (statements.flatMap CacheStatement.erase) := by
  unfold cachedInput at h
  split at h
  next bounds start singletonCount hcardinality hlocation =>
    unfold consumedInput
    rw [hcardinality, hlocation, erase_rangedCachedInput h]
  next =>
    cases hchecks : consumedInput slotOffset interaction proof with
    | error error =>
      rw [hchecks] at h
      cases h
    | ok checks =>
      rw [hchecks] at h
      cases h
      rw [erase_checks]

end

variable {app : App} {plan : CompilerRoutePlan} {actor : ActorModel} {entry : EntryModel}
variable {references : List PlannedEntryInputReference}

theorem map_fst_consumed {inputs : EntryInputPlan} (h : entryInputPlan app actor entry = .ok inputs) :
    inputs.consumed.map Prod.fst = entry.current.inputs.items := by
  have hmap := map_of_mapM_ok (k := id) (entryInputPlan_ok h).2.2 (g := Prod.fst)
    fun interaction input hinput => by
      obtain ⟨reference, -, hinput⟩ := bind_eq_ok.mp hinput
      rw [← pure_eq_ok.mp hinput]
      rfl
  rwa [List.map_id] at hmap

/-- the input checks without the arrays are those of `currentInputPrelude` -/
theorem erase_cachedInputPrelude (hlength : references.length = entry.current.inputs.items.length)
    (h : cachedInputPrelude app plan actor entry references = .ok statements) :
    currentInputPrelude app plan actor entry =
      .ok (statements.flatMap CacheStatement.erase) := by
  obtain ⟨inputs, hinputs, h⟩ := bind_eq_ok.mp h
  obtain ⟨witnesses, hwitnesses, h⟩ := bind_eq_ok.mp h
  obtain ⟨checks, hchecks, h⟩ := bind_eq_ok.mp h
  have hgroup : consumedGroupChecks actor entry witnesses inputs =
      .ok (checks.flatMap CacheStatement.erase) := by
    unfold cachedGroupChecks at hchecks
    unfold consumedGroupChecks
    dsimp only at hchecks ⊢
    split_ifs at hchecks ⊢
    · cases hchecks
      rfl
    · obtain ⟨reads, hreads, hchecks⟩ := bind_eq_ok.mp hchecks
      have hzip : inputs.consumed.length = references.length := by
        rw [hlength, ← map_fst_consumed hinputs, List.length_map]
      have hparts : inputs.consumed.mapM (fun input => do
          let proof ← inputTemplateProof witnesses actor entry input.1 input.2
          consumedInput inputs.currentGroupPolicy.slotOffset input.1 proof) =
            .ok (reads.map fun part => part.flatMap CacheStatement.erase) := by
        refine mapM_of_forall₂ ?_
        rw [← List.map_fst_zip hzip.le, List.forall₂_map_left_iff, List.forall₂_map_right_iff]
        refine (mapM_ok hreads).imp fun input part hpart => ?_
        obtain ⟨proof, hproof, hpart⟩ := bind_eq_ok.mp hpart
        exact bind_eq_ok.mpr ⟨proof, hproof, erase_cachedInput hpart⟩
      refine bind_eq_ok.mpr ⟨_, hparts, ?_⟩
      rw [← pure_eq_ok.mp hchecks, List.flatMap_append, erase_checks, List.flatMap_def (l := reads.flatten),
        List.map_flatten, List.flatten_flatten, List.map_map]
      rfl
  refine bind_eq_ok.mpr ⟨inputs, hinputs, bind_eq_ok.mpr ⟨witnesses, hwitnesses, ?_⟩⟩
  refine bind_eq_ok.mpr ⟨_, hgroup, ?_⟩
  rw [← pure_eq_ok.mp h, List.flatMap_append, erase_checks]
  rfl

/-! ## arrays in a run -/

theorem declareAll_ok {names : List String}
    (h : execCaches run (names.map .declare) state = some out) :
    names.Nodup ∧ out.frame = state.frame ∧
      (∀ name ∈ names, state.arrays name = none ∧ out.arrays name = some []) ∧
      ∀ name ∉ names, out.arrays name = state.arrays name := by
  induction names generalizing state with
  | nil =>
    cases h
    exact ⟨List.nodup_nil, rfl, nofun, fun _ _ => rfl⟩
  | cons first names ih =>
    obtain ⟨mid, hmid, h⟩ := execCaches_cons.mp h
    obtain ⟨hnew, hframe, harrays⟩ := CacheFrame.declare_eq_some hmid
    obtain ⟨hnodup, hrest, hdeclared, hkept⟩ := ih h
    -- a later declaration of the same name would have failed
    have hfresh : first ∉ names := by
      intro hmem
      have hnone := (hdeclared first hmem).1
      rw [harrays, Function.update_self] at hnone
      cases hnone
    refine ⟨List.nodup_cons.mpr ⟨hfresh, hnodup⟩, hrest.trans hframe, ?_, ?_⟩
    · intro name hname
      rcases List.mem_cons.mp hname with rfl | hname
      · refine ⟨hnew, ?_⟩
        rw [hkept name hfresh, harrays, Function.update_self]
      · obtain ⟨hnone, hempty⟩ := hdeclared name hname
        rw [harrays, Function.update_of_ne (ne_of_mem_of_not_mem hname hfresh)] at hnone
        exact ⟨hnone, hempty⟩
    · intro name hname
      rw [List.mem_cons, not_or] at hname
      rw [hkept name hname.2, harrays, Function.update_of_ne hname.1]

/-- one iteration appends one item to each array, and no other array is touched -/
theorem appendAll_ok {appends : List (String × Expr)} (hnodup : (appends.map Prod.fst).Nodup)
    (h : appends.foldlM run.append state = some out) :
    (∀ appended ∈ appends, ∃ inner items v, CacheFrame.frame inner = state.frame ∧
      state.arrays appended.1 = some items ∧ (run.inFrame inner).eval appended.2 = some v ∧
      out.arrays appended.1 = some (items ++ [v])) ∧
    ∀ name ∉ appends.map Prod.fst, out.arrays name = state.arrays name := by
  induction appends generalizing state with
  | nil =>
    cases h
    exact ⟨nofun, fun _ _ => rfl⟩
  | cons first appends ih =>
    rw [List.foldlM_cons] at h
    obtain ⟨mid, hmid, h⟩ := Option.bind_eq_some_iff.mp h
    obtain ⟨items, v, hitems, hv, hframe, harrays⟩ := append_eq_some hmid
    rw [List.map_cons, List.nodup_cons] at hnodup
    obtain ⟨happended, hkept⟩ := ih hnodup.2 h
    refine ⟨fun appended hmem => ?_, fun name hname => ?_⟩
    · rcases List.mem_cons.mp hmem with rfl | hmem
      · refine ⟨state, items, v, rfl, hitems, hv, ?_⟩
        rw [hkept _ hnodup.1, harrays, Function.update_self]
      · obtain ⟨inner, items', v', hinner, hitems', hv', hout⟩ := happended appended hmem
        have hne : appended.1 ≠ first.1 :=
          ne_of_mem_of_not_mem (List.mem_map_of_mem hmem) hnodup.1
        rw [harrays, Function.update_of_ne hne] at hitems'
        exact ⟨inner, items', v', hinner.trans hframe, hitems', hv', hout⟩
    · rw [List.map_cons, List.mem_cons, not_or] at hname
      rw [hkept name hname.2, harrays, Function.update_of_ne hname.1]

/-- the iterations of a loop with arrays, and an invariant of them -/
theorem exec_cacheLoop {ident : String} {start stop maxIterations : SilExpr}
    {body : List SilStatement} {appends : List (String × Expr)}
    (h : (CacheStatement.loop ident start stop maxIterations body appends).exec run state =
      some out) : ∃ first last most, start.eval run.ctx state.frame.env = some (.int first) ∧
      stop.eval run.ctx state.frame.env = some (.int last) ∧
      maxIterations.eval run.ctx state.frame.env = some (.int most) ∧
      ∀ P : Nat → CacheFrame → Prop, P 0 state →
        (∀ (k : Nat) before inside after next, k < (min (last - first) most).toNat → P k before →
          state.frame.env.lookup ident = none →
          execAll run.ctx body
            { before.frame with env := (ident, .int (first + k)) :: state.frame.env } =
              some inside.frame →
          inside.arrays = before.arrays → appends.foldlM run.append inside = some after →
          next.arrays = after.arrays → P (k + 1) next) →
        P (min (last - first) most).toNat out ∧ out.frame.env = state.frame.env := by
  have hint : ∀ {expr : SilExpr} {f : Int → Option CacheFrame},
      (expr.eval run.ctx state.frame.env).bind (fun v => (toInt? v).bind f) = some out →
      ∃ n, expr.eval run.ctx state.frame.env = some (.int n) ∧ f n = some out := by
    intro expr f hexpr
    obtain ⟨v, hv, hexpr⟩ := Option.bind_eq_some_iff.mp hexpr
    obtain ⟨n, hn, hexpr⟩ := Option.bind_eq_some_iff.mp hexpr
    exact ⟨n, toInt?_eq_some.mp hn ▸ hv, hexpr⟩
  obtain ⟨first, hfirst, h⟩ := hint h
  obtain ⟨last, hlast, h⟩ := hint h
  obtain ⟨most, hmost, h⟩ := hint h
  refine ⟨first, last, most, hfirst, hlast, hmost, fun P h0 hstep => ?_⟩
  refine foldlM_range (fun k before => P k before ∧ before.frame.env = state.frame.env) h ⟨h0, rfl⟩ ?_
  intro k before next hk ⟨hP, henv⟩ hiteration
  obtain ⟨inner, hinner, hiteration⟩ := Option.bind_eq_some_iff.mp hiteration
  obtain ⟨read, hread, hiteration⟩ := Option.bind_eq_some_iff.mp hiteration
  obtain ⟨inside, hinside, hiteration⟩ := Option.bind_eq_some_iff.mp hiteration
  obtain ⟨after, hafter, hnext⟩ := Option.bind_eq_some_iff.mp hiteration
  obtain ⟨hnew, hinner⟩ := Frame.define_eq_some.mp hinner
  obtain ⟨hframe, harrays⟩ := CacheFrame.of?_eq_some hinside
  obtain ⟨hnextFrame, hnextArrays⟩ := CacheFrame.of?_eq_some hnext
  rw [henv] at hnew hinner
  rw [hinner, ← hframe] at hread
  refine ⟨hstep k before inside after next hk hP hnew hread harrays hafter hnextArrays, ?_⟩
  rw [hnextFrame, henv]

theorem execChecks_arrays (hchecks : ∀ statement ∈ statements, ∃ check, statement = .check check)
    (h : execCaches run statements state = some out) : out.arrays = state.arrays := by
  induction statements generalizing state with
  | nil =>
    cases h
    rfl
  | cons statement statements ih =>
    obtain ⟨check, rfl⟩ := hchecks statement List.mem_cons_self
    obtain ⟨mid, hmid, h⟩ := execCaches_cons.mp h
    obtain ⟨frame, -, hmid⟩ := Option.bind_eq_some_iff.mp hmid
    rw [ih (fun statement hmem => hchecks statement (List.mem_cons_of_mem _ hmem)) h,
      (CacheFrame.of?_eq_some hmid).2]

/-! ## one range -/

variable {handle : String} {covenant : Bytes}

theorem readConsumedInput_state {ctx : ScriptContext} {frame after : Frame} {position : SilExpr}
    {proof : InputTemplateProof}
    (hcov : frame.env.lookup hiddenCovIdName = some (.bytes covenant))
    (h : execAll ctx (readConsumedInput handle position proof) frame = some after) :
    ∃ (k input : Nat) (spent : TransactionInput), position.eval ctx frame.env = some (.int k) ∧
      (ctx.tx.covInputs covenant)[k]? = some input ∧ ctx.tx.inputs[input]? = some spent ∧
      after.env.lookup (hiddenConsumedInputStateName handle) = some (.state spent.state) := by
  obtain ⟨mid, hdefine, h⟩ := execAll_cons.mp h
  obtain ⟨last, hread, h⟩ := execAll_cons.mp h
  obtain rfl := execAll_nil.mp h
  obtain ⟨v, hv, hnew, hmid⟩ := exec_define.mp hdefine
  obtain ⟨k, j, hk, hj, hvj⟩ := eval_covInputIdx hcov hv
  obtain ⟨i, spent, hi, hspent, -, -, hafter⟩ := exec_readInput.mp hread
  rw [eval_identifier, hmid, List.lookup_cons_self, hvj, Option.some_inj, Value.int.injEq] at hi
  obtain ⟨n, hn, hget⟩ := nth_eq_some.mp hspent
  obtain rfl : j = n := by omega
  refine ⟨k, j, spent, hk, hj, hget, ?_⟩
  rw [hafter, List.lookup_cons_self]

theorem CacheFrame.arrays_of_lookup {name : String} {v : Value}
    (h : state.frame.env.lookup name = some v) : state.arrays name = none := by
  obtain ⟨pre, post, henv, -⟩ := List.lookup_eq_some_iff.mp h
  refine state.apart (name, v) ?_
  rw [henv]
  exact List.mem_append_right _ List.mem_cons_self

theorem seen_lookup {name : String} {v : Value} (h : state.frame.env.lookup name = some v) :
    run.seen state name = run.variableValue name v := by
  unfold BodyRun.seen
  rw [CacheFrame.arrays_of_lookup h, h]
  rfl

theorem seen_array {name : String} {items : List BodyValue} (h : state.arrays name = some items) :
    run.seen state name = some (.array items) := by
  unfold BodyRun.seen
  rw [h]

/-- what an expression over the state variable of a handle reads from the input of the covenant at a
position -/
def ReadsAt (run : BodyRun) (covenant : Bytes) (handle : String) (position : Nat) (value : Expr)
    (v : BodyValue) : Prop :=
  ∃ (input : Nat) (spent : TransactionInput) (names : String → Option BodyValue),
    (run.ctx.tx.covInputs covenant)[position]? = some input ∧
    run.ctx.tx.inputs[input]? = some spent ∧
    names (hiddenConsumedInputStateName handle) =
      (run.decode (hiddenConsumedInputStateName handle) spent.state).map .record ∧
    ({ run with names } : BodyRun).eval value = some v

/-- an array with one item for each position of a range, in order -/
def Filled (run : BodyRun) (covenant : Bytes) (handle : String) (first count : Nat)
    (out : CacheFrame) (appended : String × Expr) : Prop :=
  ∃ items, out.arrays appended.1 = some items ∧
    List.Forall₂ (fun position v => ReadsAt run covenant handle (first + position) appended.2 v)
      (List.range count) items

theorem Filled.congr {first count : Nat} {out' : CacheFrame} {appended : String × Expr}
    (h : Filled run covenant handle first count out appended) (harrays : out'.arrays = out.arrays) :
    Filled run covenant handle first count out' appended := by
  unfold Filled
  rw [harrays]
  exact h

theorem Filled.step {ident : String} {appends : List (String × Expr)} {first k : Nat} {env : Env}
    {checked : List OutputCheck} {proof : InputTemplateProof}
    {before inside after next : CacheFrame} (hnodup : (appends.map Prod.fst).Nodup)
    (hcov : env.lookup hiddenCovIdName = some (.bytes covenant)) (hident : env.lookup ident = none)
    (hfilled : ∀ appended ∈ appends, Filled run covenant handle first k before appended)
    (hread : execAll run.ctx (readConsumedInput handle (positionFrom first ident) proof)
      ⟨(ident, .int k) :: env, checked⟩ = some inside.frame)
    (harrays : inside.arrays = before.arrays) (happend : appends.foldlM run.append inside = some after)
    (hnext : next.arrays = after.arrays) :
    ∀ appended ∈ appends, Filled run covenant handle first (k + 1) next appended := by
  obtain ⟨position, input, spent, hposition, hinput, hspent, hstate⟩ :=
    readConsumedInput_state ((Env.Sub.define hident) hcov) hread
  rw [eval_positionFrom (k := k) List.lookup_cons_self, Option.some_inj, Value.int.injEq] at hposition
  obtain rfl : first + k = position := by omega
  intro appended hmem
  obtain ⟨inner, items, v, hinner, hitems, hv, hout⟩ := (appendAll_ok hnodup happend).1 appended hmem
  obtain ⟨items', hitems', hall⟩ := hfilled appended hmem
  rw [harrays, hitems', Option.some_inj] at hitems
  refine ⟨items ++ [v], by rw [hnext, hout], ?_⟩
  rw [List.range_succ, ← hitems]
  refine List.rel_append hall (.cons ⟨input, spent, run.seen inner, hinput, hspent, ?_, hv⟩ .nil)
  rw [← hinner] at hstate
  exact seen_lookup hstate

/-- **The loop over a range appends its items in order.** -/
theorem rangedCachedInput_filled {planned : PlannedEntryInputReference} {bounds : RangeBounds}
    {start singletonCount slotOffset : Nat} {proof : InputTemplateProof}
    (hlow : rangedCachedInput planned handle bounds start singletonCount slotOffset proof =
      .ok statements)
    (hcov : state.frame.env.lookup hiddenCovIdName = some (.bytes covenant))
    (h : execCaches run statements state = some out) :
    ∃ appends count, planned.rangeCacheAppend handle = .ok appends ∧
      out.frame.env.lookup (hiddenInputCountName handle) = some (.int count) ∧
      ∀ appended ∈ appends,
        Filled run covenant handle (slotOffset + start) count.toNat out appended := by
  obtain ⟨appends, happends, hlow⟩ := bind_eq_ok.mp hlow
  rw [← pure_eq_ok.mp hlow, rangeCacheDeclarations_eq happends] at h
  obtain ⟨declared, hdeclared, h⟩ := execCaches_append.mp h
  obtain ⟨bounded, hbounded, hdeclare⟩ := execCaches_append.mp hdeclared
  have hchecks := execCaches_erase hbounded
  obtain ⟨counted, hcount, hchecks⟩ := execAll_cons.mp hchecks
  obtain ⟨v, hv, hnew, hcounted⟩ := exec_define.mp hcount
  rw [eval_countWithout (eval_covInputCount hcov), Option.some_inj] at hv
  have hlookup : counted.env.lookup (hiddenInputCountName handle) = some v := by
    rw [hcounted, List.lookup_cons_self]
  rw [← hv] at hlookup
  obtain ⟨hbounds, hchecks⟩ := exec_bounds hlookup hchecks
  have hcounted' : bounded.frame = counted := execAll_nil.mp hchecks
  have hcov' : counted.env.lookup hiddenCovIdName = some (.bytes covenant) := by
    rw [hcounted]
    exact Env.Sub.define hnew hcov
  -- the arrays are empty before the loop
  obtain ⟨hnodup, hframe, hempty, -⟩ := declareAll_ok hdeclare
  rw [hcounted'] at hframe
  obtain ⟨_, hloop, hnil⟩ := execCaches_cons.mp h
  cases hnil
  obtain ⟨first, last, most, hfirst, hlast, hmost, hiterations⟩ := exec_cacheLoop hloop
  rw [hframe] at hlast
  rw [eval_int, Option.some_inj, Value.int.injEq] at hfirst hmost
  rw [eval_identifier, hlookup, Option.some_inj, Value.int.injEq] at hlast
  obtain ⟨hfilled, henv⟩ := hiterations
    (fun k now => ∀ appended ∈ appends, Filled run covenant handle (slotOffset + start) k now appended)
    (fun appended hmem => ⟨[], (hempty _ (List.mem_map_of_mem hmem)).2, .nil⟩)
    (by
      intro k before inside after next _ hfilled hident hread harrays happend hnext
      rw [← hfirst, Int.zero_add, hframe] at hread
      rw [hframe] at hident
      exact Filled.step hnodup hcov' hident hfilled hread harrays happend hnext)
  refine ⟨appends, last, happends, ?_, ?_⟩
  · rw [henv, hframe, hlookup, hlast]
  · rwa [show (min (last - first) most).toNat = last.toNat by omega] at hfilled

/-! ## the preludes of an entry -/

theorem cachedInput_checks {slotOffset : Nat} {interaction : EntryInteraction}
    {proof : InputTemplateProof} {planned : PlannedEntryInputReference}
    (hone : interaction.cardinality = .one)
    (h : cachedInput slotOffset interaction proof planned = .ok statements) :
    ∀ statement ∈ statements, ∃ check, statement = .check check := by
  unfold cachedInput at h
  split at h
  next hcardinality _ =>
    rw [hone] at hcardinality
    cases hcardinality
  next =>
    cases hchecks : consumedInput slotOffset interaction proof with
    | error error =>
      rw [hchecks] at h
      cases h
    | ok checks =>
      rw [hchecks] at h
      cases h
      intro statement hmem
      obtain ⟨check, -, rfl⟩ := List.mem_map.mp hmem
      exact ⟨check, rfl⟩

theorem map_check_checks (checks : List SilStatement) :
    ∀ statement ∈ checks.map CacheStatement.check, ∃ check, statement = .check check := by
  intro statement hmem
  obtain ⟨check, -, rfl⟩ := List.mem_map.mp hmem
  exact ⟨check, rfl⟩

/-- the statements of a ranged input, between the rules of its group and statements without arrays -/
theorem cachedInputPrelude_split {index : Nat} {item : EntryInteraction} {bounds : RangeBounds}
    {start singletonCount : Nat} {planned : PlannedEntryInputReference}
    (hlength : references.length = entry.current.inputs.items.length)
    (hlow : cachedInputPrelude app plan actor entry references = .ok statements)
    (hitem : entry.current.inputs.items[index]? = some item)
    (hcardinality : item.cardinality = .range bounds)
    (hlocation : item.location = .range start singletonCount)
    (hplanned : references[index]? = some planned) :
    ∃ proof before part after, statements = .check defineCovId :: before ++ part ++ after ∧
      rangedCachedInput planned item.handle bounds start singletonCount (sectionOffset entry) proof =
        .ok part ∧
      ∀ statement ∈ after, ∃ check, statement = .check check := by
  obtain ⟨inputs, hinputs, hlow⟩ := bind_eq_ok.mp hlow
  obtain ⟨witnesses, -, hlow⟩ := bind_eq_ok.mp hlow
  obtain ⟨checks, hchecks, hlow⟩ := bind_eq_ok.mp hlow
  obtain ⟨hpolicy, -, -⟩ := entryInputPlan_ok hinputs
  have hconsumed := map_fst_consumed hinputs
  have hzip : inputs.consumed.length = references.length := by
    rw [hlength, ← hconsumed, List.length_map]
  unfold cachedGroupChecks at hchecks
  dsimp only at hchecks
  rw [hpolicy, if_neg (not_batchable_of_mem (List.mem_of_getElem? hitem)),
    slotOffset_currentGroupPolicy] at hchecks
  obtain ⟨reads, hreads, hchecks⟩ := bind_eq_ok.mp hchecks
  -- a part of the reads, with its item
  have hread : ∀ (j : Nat) part, reads[j]? = some part → ∃ other proof reference,
      entry.current.inputs.items[j]? = some other ∧ references[j]? = some reference ∧
        cachedInput (sectionOffset entry) other proof reference = .ok part := by
    intro j part hpart
    obtain ⟨⟨⟨other, requirement⟩, reference⟩, hpair, hpart⟩ :=
      forall₂_getElem? (mapM_ok hreads) hpart
    obtain ⟨hother, hreference⟩ := List.getElem?_zip_eq_some.mp hpair
    obtain ⟨proof, -, hpart⟩ := bind_eq_ok.mp hpart
    refine ⟨other, proof, reference, ?_, hreference, hpart⟩
    rw [← hconsumed, List.getElem?_map, hother]
    rfl
  have hindex : index < reads.length := by
    rw [← (mapM_ok hreads).length_eq, List.length_zip, ← hzip, Nat.min_self,
      ← List.length_map (f := Prod.fst), hconsumed]
    exact (List.getElem?_eq_some_iff.mp hitem).1
  obtain ⟨part, hpart⟩ : ∃ part, reads[index]? = some part := ⟨_, List.getElem?_eq_getElem hindex⟩
  obtain ⟨item', proof, planned', hitem', hplanned', hlowered⟩ := hread index part hpart
  rw [hitem] at hitem'
  cases hitem'
  rw [hplanned] at hplanned'
  cases hplanned'
  unfold cachedInput at hlowered
  rw [hcardinality, hlocation] at hlowered
  refine ⟨proof,
    (groupPolicyChecks (currentGroupPolicy app actor entry)).map .check ++ (reads.take index).flatten,
    part, (reads.drop (index + 1)).flatten ++ (optionalDelegateGuard inputs).map .check, ?_,
    hlowered, ?_⟩
  · have hsplit : reads = reads.take index ++ part :: reads.drop (index + 1) := by
      obtain ⟨hlt, hget⟩ := List.getElem?_eq_some_iff.mp hpart
      rw [← hget, ← List.drop_eq_getElem_cons hlt, List.take_append_drop]
    rw [← pure_eq_ok.mp hlow, ← pure_eq_ok.mp hchecks]
    conv_lhs => rw [hsplit, List.flatten_append, List.flatten_cons]
    simp only [List.map_cons, List.cons_append, List.append_assoc]
  · intro statement hmem
    rcases List.mem_append.mp hmem with hmem | hmem
    · obtain ⟨other, hother, hmem⟩ := List.mem_flatten.mp hmem
      obtain ⟨j, hj⟩ := List.mem_iff_getElem?.mp hother
      rw [List.getElem?_drop] at hj
      obtain ⟨interaction, proof', reference, hinteraction, -, hlowered'⟩ := hread _ _ hj
      exact cachedInput_checks (entry.current.inputs.one_of_ne hitem hcardinality hinteraction (by omega))
        hlowered' statement hmem
    · exact map_check_checks _ statement hmem

/-- **After the preludes the arrays of a range hold its items.** -/
theorem cachedInputPrelude_filled {index : Nat} {item : EntryInteraction} {bounds : RangeBounds}
    {start singletonCount : Nat} {planned : PlannedEntryInputReference} {outputs : List SilStatement}
    (hlength : references.length = entry.current.inputs.items.length)
    (hlow : cachedInputPrelude app plan actor entry references = .ok statements)
    (hitem : entry.current.inputs.items[index]? = some item)
    (hcardinality : item.cardinality = .range bounds)
    (hlocation : item.location = .range start singletonCount)
    (hplanned : references[index]? = some planned)
    (hc : run.ctx.tx.inputCovenantId run.ctx.active = some covenant)
    (h : execCaches run (statements ++ outputs.map .check) state = some out) :
    ∃ appends count, planned.rangeCacheAppend item.handle = .ok appends ∧
      out.frame.env.lookup (hiddenInputCountName item.handle) = some (.int count) ∧
      ∀ appended ∈ appends,
        Filled run covenant item.handle (sectionOffset entry + start) count.toNat out appended := by
  obtain ⟨proof, before, part, after, rfl, hpart, hafter⟩ :=
    cachedInputPrelude_split hlength hlow hitem hcardinality hlocation hplanned
  obtain ⟨checked, h, houtputs⟩ := execCaches_append.mp h
  obtain ⟨read, h, hrest⟩ := execCaches_append.mp h
  obtain ⟨ready, h, hread⟩ := execCaches_append.mp h
  obtain ⟨known, hknown, hbefore⟩ := execCaches_cons.mp h
  obtain ⟨frame, hdefine, hknown⟩ := Option.bind_eq_some_iff.mp hknown
  have hid : known.frame.env.lookup hiddenCovIdName = some (.bytes covenant) := by
    rw [(CacheFrame.of?_eq_some hknown).1]
    exact (exec_defineCovId hc hdefine).2
  have hcov := (execCaches_extends hbefore).names hid
  obtain ⟨appends, count, happends, hcount, hfilled⟩ := rangedCachedInput_filled hpart hcov hread
  refine ⟨appends, count, happends, ?_, fun appended hmem => (hfilled appended hmem).congr ?_⟩
  · exact (execCaches_extends houtputs).names ((execCaches_extends hrest).names hcount)
  · rw [execChecks_arrays (map_check_checks outputs) houtputs, execChecks_arrays hafter hrest]

/-! ## the items of an array -/

/-- a field of the state of an input, as the state variable of a handle reads it -/
def BodyRun.stateField (run : BodyRun) (handle name : String) (spent : TransactionInput) :
    Option BodyValue := do
  let fields ← run.decode (hiddenConsumedInputStateName handle) spent.state
  fields.lookup name

/-- the input of the covenant at a position -/
def InputAt (run : BodyRun) (covenant : Bytes) (position input : Nat) (spent : TransactionInput) :
    Prop :=
  (run.ctx.tx.covInputs covenant)[position]? = some input ∧ run.ctx.tx.inputs[input]? = some spent

section
variable {position first count j : Nat} {v : BodyValue}

theorem eval_generated {name : String} : run.eval (.generated name) = run.names name := by
  unfold Expr.generated
  rw [BodyRun.eval]

theorem eval_readField {names : String → Option BodyValue} {spent : TransactionInput} {name : String}
    (hnames : names (hiddenConsumedInputStateName handle) =
      (run.decode (hiddenConsumedInputStateName handle) spent.state).map .record)
    (h : ({ run with names } : BodyRun).eval (.fieldAccess defaultSpan
      (.generated (hiddenConsumedInputStateName handle)) name) = some v) :
    run.stateField handle name spent = some v := by
  rw [BodyRun.eval, eval_generated] at h
  obtain ⟨record, hrecord, h⟩ := Option.bind_eq_some_iff.mp h
  change names (hiddenConsumedInputStateName handle) = some record at hrecord
  rw [hnames] at hrecord
  obtain ⟨fields, hfields, rfl⟩ := Option.map_eq_some_iff.mp hrecord
  exact Option.bind_eq_some_iff.mpr ⟨fields, hfields, h⟩

theorem ReadsAt.field {name : String} (h : ReadsAt run covenant handle position (.fieldAccess defaultSpan
      (.generated (hiddenConsumedInputStateName handle)) name) v) :
    ∃ input spent, InputAt run covenant position input spent ∧
      run.stateField handle name spent = some v := by
  obtain ⟨input, spent, names, hinput, hspent, hnames, hv⟩ := h
  exact ⟨input, spent, ⟨hinput, hspent⟩, eval_readField hnames hv⟩

theorem lookup_evalFields {names : String → Option BodyValue} {spent : TransactionInput}
    (hnames : names (hiddenConsumedInputStateName handle) =
      (run.decode (hiddenConsumedInputStateName handle) spent.state).map .record)
    {fields : List PlannedSourceField} {exprs : List (String × Expr)}
    {values : List (String × BodyValue)}
    (hexprs : List.Forall₂ (fun (field : PlannedSourceField) (expr : String × Expr) =>
      expr = (field.name, .fieldAccess defaultSpan
        (.generated (hiddenConsumedInputStateName handle)) field.name)) fields exprs)
    (h : ({ run with names } : BodyRun).evalFields exprs = some values) :
    ∀ field ∈ fields, values.lookup field.name = run.stateField handle field.name spent := by
  induction hexprs generalizing values with
  | nil => exact nofun
  | @cons first expr fields exprs hfirst _ ih =>
    rw [hfirst, BodyRun.evalFields] at h
    obtain ⟨v, hv, h⟩ := Option.bind_eq_some_iff.mp h
    obtain ⟨rest, hrest, h⟩ := Option.bind_eq_some_iff.mp h
    cases h
    intro field hfield
    rw [List.lookup_cons]
    split
    next heq => rw [eq_of_beq heq, eval_readField hnames hv]
    next hne =>
      rcases List.mem_cons.mp hfield with rfl | hfield
      · rw [beq_self_eq_true] at hne
        cases hne
      · exact ih hrest field hfield

/-- the state of an item is a struct with the readable fields of the input's state -/
theorem ReadsAt.item {planned : PlannedEntryInputReference} {value : Expr}
    (hreads : ReadsFrom (hiddenConsumedInputStateName handle) planned)
    (hvalue : planned.rangeItem = .ok value) (h : ReadsAt run covenant handle position value v) :
    ∃ input spent values, InputAt run covenant position input spent ∧ v = .record values ∧
      ∀ field ∈ planned.fields,
        values.lookup field.name = run.stateField handle field.name spent := by
  obtain ⟨input, spent, names, hinput, hspent, hnames, hv⟩ := h
  unfold PlannedEntryInputReference.rangeItem at hvalue
  split at hvalue
  next complete hcomplete =>
    -- the variable is itself the authored state
    cases hvalue
    rw [eval_generated] at hv
    change names complete = some v at hv
    rw [hreads.complete complete hcomplete, hnames] at hv
    obtain ⟨fields, hfields, rfl⟩ := Option.map_eq_some_iff.mp hv
    refine ⟨input, spent, fields, ⟨hinput, hspent⟩, rfl, fun field _ => ?_⟩
    unfold BodyRun.stateField
    rw [hfields]
    rfl
  next =>
    obtain ⟨exprs, hexprs, hvalue⟩ := bind_eq_ok.mp hvalue
    rw [← pure_eq_ok.mp hvalue, BodyRun.eval] at hv
    obtain ⟨values, hvalues, hv⟩ := Option.bind_eq_some_iff.mp hv
    cases hv
    refine ⟨input, spent, values, ⟨hinput, hspent⟩, rfl, lookup_evalFields hnames ?_ hvalues⟩
    refine forall₂_of_mapM hexprs fun field hfield expr hexpr => ?_
    obtain ⟨value, hprojection, hexpr⟩ := bind_eq_ok.mp hexpr
    rw [← pure_eq_ok.mp hexpr, hreads.fields field hfield value (okOr_eq_ok.mp hprojection)]

theorem Filled.get {appended : String × Expr} {out : CacheFrame}
    (h : Filled run covenant handle first count out appended) : ∃ items,
      out.arrays appended.1 = some items ∧ items.length = count ∧
      ∀ j v, items[j]? = some v → ReadsAt run covenant handle (first + j) appended.2 v := by
  obtain ⟨items, hitems, hall⟩ := h
  refine ⟨items, hitems, ?_, fun j v hv => ?_⟩
  · rw [← hall.length_eq, List.length_range]
  · obtain ⟨position, hposition, hreads⟩ := forall₂_getElem? hall hv
    obtain ⟨hlt, hget⟩ := List.getElem?_eq_some_iff.mp hposition
    rw [List.getElem_range] at hget
    rwa [hget]

end

end Argent.Codegen
