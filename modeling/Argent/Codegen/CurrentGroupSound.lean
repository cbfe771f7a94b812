import Argent.Codegen.CurrentGroup
import Argent.Model.Positions

/-!
# What the checks of the current covenant establish

An execution of an entry's group checks is read back statement by statement.

* `Authenticated`          the covenant's input at a position passed a template check;
* `consumedInput_ok`       one consumed handle authenticates every position it owns;
* `GroupChecked`           **everything that a passing entry has checked about its covenant**.
-/

set_option linter.unusedSectionVars false

namespace Argent.Codegen
open Argent.Model Argent.Sil Argent.Fallible

variable {ctx : ScriptContext} {frame out : Frame} {covenant : Bytes} {env : Env}

/-! ## expressions -/

theorem eval_activeInputIndex : SilExpr.activeInputIndex.eval ctx env = some (.int ctx.active) := by
  rw [SilExpr.eval]

theorem eval_number {n : Nat} : (number n).eval ctx env = some (.int n) := by
  unfold number
  rw [SilExpr.eval]

theorem eval_int {n : Int} : (SilExpr.int n).eval ctx env = some (.int n) := by
  rw [SilExpr.eval]

theorem eval_covInputCount {name : String} (h : env.lookup name = some (.bytes covenant)) :
    (covInputCount name).eval ctx env = some (.int (ctx.tx.covInputs covenant).length) :=
  eval_call₁.mpr ⟨_, eval_identifier.trans h, rfl⟩

theorem eval_covInputIdx {name : String} {position : SilExpr} {v : Value}
    (h : env.lookup name = some (.bytes covenant))
    (hv : (covInputIdx name position).eval ctx env = some v) :
    ∃ k j : Nat, position.eval ctx env = some (.int k) ∧
      (ctx.tx.covInputs covenant)[k]? = some j ∧ v = .int j := by
  obtain ⟨v₁, v₂, hv₁, hv₂, hrun⟩ := eval_call₂.mp hv
  rw [eval_identifier, h, Option.some_inj] at hv₁
  rw [← hv₁] at hrun
  cases v₂ with
  | int position =>
    obtain ⟨j, hj, hv⟩ := Option.bind_eq_some_iff.mp hrun
    obtain ⟨k, hk, hget⟩ := nth_eq_some.mp hj
    exact ⟨k, j, hk ▸ hv₂, hget, (Option.some_inj.mp hv).symm⟩
  | bool _ | bytes _ | state _ => cases hrun

theorem eval_authOutputCount :
    authOutputCount.eval ctx env = some (.int (ctx.tx.authOutputs ctx.active).length) :=
  eval_call₁.mpr ⟨_, eval_activeInputIndex, rfl⟩

theorem exec_comparison {op : BinaryOp} {left right : SilExpr} :
    (comparison op left right).exec ctx frame = some out ↔
      (∃ v₁ v₂, left.eval ctx frame.env = some v₁ ∧ right.eval ctx frame.env = some v₂ ∧
        op.run v₁ v₂ = some (.bool true)) ∧ out = frame := by
  unfold comparison
  rw [exec_require, eval_binary]

/-- `require(covenant's first input == this.activeInputIndex)` -/
theorem exec_first {name : String} (h : frame.env.lookup name = some (.bytes covenant))
    (hexec : (comparison .eq (covInputIdx name (number 0)) .activeInputIndex).exec ctx frame =
      some out) :
    (ctx.tx.covInputs covenant).head? = some ctx.active ∧ out = frame := by
  obtain ⟨⟨v₁, v₂, hv₁, hv₂, hrun⟩, hout⟩ := exec_comparison.mp hexec
  obtain ⟨k, j, hk, hj, hv⟩ := eval_covInputIdx h hv₁
  rw [eval_number, Option.some_inj, Value.int.injEq] at hk
  rw [eval_activeInputIndex, Option.some_inj] at hv₂
  rw [run_eq, hv, ← hv₂, Value.int.injEq] at hrun
  refine ⟨?_, hout⟩
  rw [List.head?_eq_getElem?, show (0 : Nat) = k by omega, hj, show j = ctx.active by omega]

/-- a count, less the items outside the range -/
theorem eval_countWithout {count : SilExpr} {n excluded : Nat}
    (h : count.eval ctx env = some (.int n)) :
    (countWithout count excluded).eval ctx env = some (.int (n - excluded)) := by
  unfold countWithout
  split
  · rename_i hzero
    rw [h, hzero]
    simp
  · exact eval_binary.mpr ⟨_, _, h, eval_number, rfl⟩

theorem eval_positionFrom {first k : Nat} {position : String}
    (h : env.lookup position = some (.int k)) :
    (positionFrom first position).eval ctx env = some (.int (first + k : Nat)) := by
  unfold positionFrom
  split
  · rename_i hzero
    rw [eval_identifier, h, hzero, Nat.zero_add]
  · refine eval_binary.mpr ⟨_, _, eval_number, eval_identifier.trans h, ?_⟩
    show some (Value.int (first + k)) = _
    push_cast
    rfl

/-! ## inputs -/

/-- the covenant's input at the position passed the check of the proof -/
def Authenticated (ctx : ScriptContext) (covenant : Bytes) (env : Env) (proof : InputTemplateProof)
    (position : Nat) : Prop :=
  ∃ j input env', (ctx.tx.covInputs covenant)[position]? = some j ∧
    ctx.tx.inputs[j]? = some input ∧ env.Sub env' ∧ proof.passes ctx env' input = some ()

theorem Authenticated.mono {env' : Env} {proof : InputTemplateProof} {position : Nat}
    (h : Authenticated ctx covenant env' proof position) (hext : env.Sub env') :
    Authenticated ctx covenant env proof position := by
  obtain ⟨j, input, env'', hj, hinput, hsub, hpasses⟩ := h
  exact ⟨j, input, env'', hj, hinput, hext.trans hsub, hpasses⟩

theorem readConsumedInput_ok {handle : String} {position : SilExpr} {proof : InputTemplateProof}
    (hcov : frame.env.lookup hiddenCovIdName = some (.bytes covenant))
    (h : execAll ctx (readConsumedInput handle position proof) frame = some out) :
    ∃ k : Nat, position.eval ctx frame.env = some (.int k) ∧
      Authenticated ctx covenant frame.env proof k := by
  obtain ⟨mid, hdefine, h⟩ := execAll_cons.mp h
  obtain ⟨after, hread, _⟩ := execAll_cons.mp h
  obtain ⟨v, hv, hnew, hmid⟩ := exec_define.mp hdefine
  obtain ⟨k, j, hk, hj, hvj⟩ := eval_covInputIdx hcov hv
  obtain ⟨i, input, hi, hinput, hpasses, _, _⟩ := exec_readInput.mp hread
  refine ⟨k, hk, j, input, mid.env, hj, ?_, hmid ▸ Env.Sub.define hnew, hpasses⟩
  rw [eval_identifier, hmid, List.lookup_cons_self, hvj, Option.some_inj, Value.int.injEq] at hi
  obtain ⟨n, hn, hget⟩ := nth_eq_some.mp hinput
  rwa [show j = n by omega]

/-- `require(minimum <= count); require(count <= maximum)` -/
theorem exec_bounds {count : String} {bounds : RangeBounds} {n : Int}
    {statements : List SilStatement} (hcount : frame.env.lookup count = some (.int n))
    (h : execAll ctx (comparison .ge (.identifier count) (.int bounds.minimum) ::
      comparison .le (.identifier count) (.int bounds.maximum) :: statements) frame = some out) :
    (bounds.minimum ≤ n ∧ n ≤ bounds.maximum) ∧ execAll ctx statements frame = some out := by
  obtain ⟨mid, hmin, h⟩ := execAll_cons.mp h
  obtain ⟨mid', hmax, h⟩ := execAll_cons.mp h
  obtain ⟨⟨v₁, v₂, hv₁, hv₂, hge⟩, hmid⟩ := exec_comparison.mp hmin
  rw [hmid] at hmax
  obtain ⟨⟨w₁, w₂, hw₁, hw₂, hle⟩, hmid'⟩ := exec_comparison.mp hmax
  rw [eval_identifier, hcount, Option.some_inj] at hv₁ hw₁
  rw [eval_int, Option.some_inj] at hv₂ hw₂
  rw [← hv₁, ← hv₂, run_ge] at hge
  rw [← hw₁, ← hw₂, run_le] at hle
  exact ⟨⟨hge, hle⟩, hmid' ▸ h⟩

/-- a ranged consume checks its count and authenticates each of its positions -/
theorem rangedCurrentInput_ok {handle : String} {bounds : RangeBounds}
    {start singletonCount slotOffset : Nat} {proof : InputTemplateProof}
    (hcov : frame.env.lookup hiddenCovIdName = some (.bytes covenant))
    (h : execAll ctx (rangedCurrentInput handle bounds start singletonCount slotOffset proof)
      frame = some out) :
    (bounds.minimum ≤ (ctx.tx.covInputs covenant).length - (slotOffset + singletonCount : Nat) ∧
      (ctx.tx.covInputs covenant).length - (slotOffset + singletonCount : Nat) ≤ bounds.maximum) ∧
    ∀ k : Nat, (k : Int) < (ctx.tx.covInputs covenant).length - (slotOffset + singletonCount : Nat) →
      Authenticated ctx covenant frame.env proof (slotOffset + start + k) := by
  obtain ⟨counted, hcount, h⟩ := execAll_cons.mp h
  obtain ⟨v, hv, hnew, hcounted⟩ := exec_define.mp hcount
  rw [eval_countWithout (eval_covInputCount hcov), Option.some_inj] at hv
  have hsub : frame.env.Sub counted.env := hcounted ▸ Env.Sub.define hnew
  have hlookup : counted.env.lookup (hiddenInputCountName handle) = some v := by
    rw [hcounted, List.lookup_cons_self]
  rw [← hv] at hlookup
  obtain ⟨hbounds, h⟩ := exec_bounds hlookup h
  obtain ⟨_, hloop, _⟩ := execAll_cons.mp h
  obtain ⟨first, last, most, hfirst, hlast, hmost, hiterations⟩ := exec_loop hloop
  rw [eval_int, Option.some_inj, Value.int.injEq] at hfirst hmost
  rw [eval_identifier, hlookup, Option.some_inj, Value.int.injEq] at hlast
  refine ⟨hbounds, fun k hk => ?_⟩
  -- the induction of the loop collects the positions read so far
  obtain ⟨hall, _⟩ := hiterations
    (fun n _ => ∀ k < n, Authenticated ctx covenant frame.env proof (slotOffset + start + k))
    (fun k hk => absurd hk (Nat.not_lt_zero k)) (by
      intro n inner after _ hprev _ hident hbody k hk
      obtain hk | hk := Nat.lt_succ_iff_lt_or_eq.mp hk
      · exact hprev k hk
      have hinner := hsub.trans (Env.Sub.define (v := .int (first + n)) hident)
      obtain ⟨position, hposition, hread⟩ := readConsumedInput_ok (hinner hcov) hbody
      rw [eval_positionFrom (k := n) (by rw [List.lookup_cons_self, ← hfirst, Int.zero_add]),
        Option.some_inj, Value.int.injEq] at hposition
      rw [hk, show slotOffset + start + n = position by omega]
      exact hread.mono hinner)
  exact hall k (by omega)

/-- a consumed handle authenticates every position that it owns -/
theorem consumedInput_ok {slotOffset : Nat} {interaction : EntryInteraction}
    {proof : InputTemplateProof} {statements : List SilStatement}
    (hlow : consumedInput slotOffset interaction proof = .ok statements)
    (hslot : slotOffset ≤ (ctx.tx.covInputs covenant).length)
    (hcov : frame.env.lookup hiddenCovIdName = some (.bytes covenant))
    (h : execAll ctx statements frame = some out) :
    (∀ position, interaction.location.Owns ((ctx.tx.covInputs covenant).length - slotOffset)
      position → Authenticated ctx covenant frame.env proof (slotOffset + position)) ∧
    ∀ bounds start singletonCount, interaction.cardinality = .range bounds →
      interaction.location = .range start singletonCount →
      bounds.minimum ≤ (ctx.tx.covInputs covenant).length - (slotOffset + singletonCount : Nat) ∧
      (ctx.tx.covInputs covenant).length - (slotOffset + singletonCount : Nat) ≤
        bounds.maximum := by
  unfold consumedInput at hlow
  cases hcard : interaction.cardinality with
  | range bounds =>
    cases hloc : interaction.location with
    | fromStart _ | fromEnd _ => rw [hcard, hloc] at hlow; cases hlow
    | range start singletonCount =>
      rw [hcard, hloc] at hlow
      rw [← Except.ok.inj hlow] at h
      obtain ⟨hbounds, hread⟩ := rangedCurrentInput_ok hcov h
      refine ⟨fun position hposition => ?_, fun bounds' start' singletonCount' hb hl => ?_⟩
      · obtain ⟨hstart, hend⟩ := hposition
        have := hread (position - start) (by have := bounds.nonneg; omega)
        rwa [show slotOffset + start + (position - start) = slotOffset + position by omega] at this
      · cases hb
        cases hl
        exact hbounds
  | one =>
    refine ⟨fun position hposition => ?_, fun _ _ _ hb => nomatch hb⟩
    cases hloc : interaction.location with
    | range _ _ => rw [hcard, hloc] at hlow; cases hlow
    | fromStart index =>
      rw [hcard, hloc] at hlow
      rw [hloc] at hposition
      rw [← Except.ok.inj hlow] at h
      obtain ⟨k, hk, hread⟩ := readConsumedInput_ok hcov h
      rw [eval_number, Option.some_inj, Value.int.injEq] at hk
      rwa [show slotOffset + position = k by rw [show position = index from hposition]; omega]
    | fromEnd distance =>
      rw [hcard, hloc] at hlow
      rw [hloc] at hposition
      rw [← Except.ok.inj hlow] at h
      obtain ⟨k, hk, hread⟩ := readConsumedInput_ok hcov h
      obtain ⟨v₁, v₂, hv₁, hv₂, hrun⟩ := eval_binary.mp hk
      rw [eval_covInputCount hcov, Option.some_inj] at hv₁
      rw [eval_number, Option.some_inj] at hv₂
      rw [← hv₁, ← hv₂] at hrun
      have hsub := Value.int.inj (Option.some_inj.mp hrun)
      have howns : position + distance = (ctx.tx.covInputs covenant).length - slotOffset := hposition
      rwa [show slotOffset + position = k by omega]

/-! ## outputs -/

/-- a singleton output is found at the position it owns; a ranged one has its count checked -/
theorem outputLocation_ok {interaction : EntryInteraction} {statements : List SilStatement}
    (hlow : outputLocation interaction = .ok statements)
    (h : execAll ctx statements frame = some out) :
    (interaction.cardinality = .one → ∃ position j : Nat,
      interaction.location.Owns (ctx.tx.authOutputs ctx.active).length position ∧
      (ctx.tx.authOutputs ctx.active)[position]? = some j ∧
      out.env.lookup (hiddenOutputIdxName interaction.handle) = some (.int j)) ∧
    ∀ bounds, interaction.cardinality = .range bounds → ∃ start singletonCount n,
      interaction.location = .range start singletonCount ∧
      n = ((ctx.tx.authOutputs ctx.active).length : Int) - singletonCount ∧
      (bounds.minimum ≤ n ∧ n ≤ bounds.maximum) ∧
      out.env.lookup (hiddenOutputCountName interaction.handle) = some (.int n) := by
  have hindex : ∀ {index : SilExpr}, statements =
        [.define (hiddenOutputIdxName interaction.handle)
          (.call .opAuthOutputIdx [.activeInputIndex, index])] →
      ∃ position j : Nat, index.eval ctx frame.env = some (.int position) ∧
        (ctx.tx.authOutputs ctx.active)[position]? = some j ∧
        out.env.lookup (hiddenOutputIdxName interaction.handle) = some (.int j) := by
    intro index hstatements
    rw [hstatements] at h
    obtain ⟨mid, hdefine, hnil⟩ := execAll_cons.mp h
    obtain ⟨v, hv, _, hmid⟩ := exec_define.mp hdefine
    obtain ⟨v₁, v₂, hv₁, hv₂, hrun⟩ := eval_call₂.mp hv
    rw [eval_activeInputIndex, Option.some_inj] at hv₁
    rw [← hv₁] at hrun
    cases v₂ with
    | int index =>
      obtain ⟨j, hj, hvj⟩ := Option.bind_eq_some_iff.mp hrun
      obtain ⟨position, hposition, hget⟩ := nth_eq_some.mp hj
      refine ⟨position, j, hposition ▸ hv₂, hget, ?_⟩
      rw [execAll_nil.mp hnil, hmid, List.lookup_cons_self, ← Option.some_inj.mp hvj]
    | bool _ | bytes _ | state _ => cases hrun
  unfold outputLocation at hlow
  cases hcard : interaction.cardinality with
  | one =>
    refine ⟨fun _ => ?_, fun _ hb => nomatch hb⟩
    cases hloc : interaction.location with
    | range _ _ => rw [hcard, hloc] at hlow; cases hlow
    | fromStart index =>
      rw [hcard, hloc] at hlow
      obtain ⟨position, j, hposition, hj, hlookup⟩ := hindex (Except.ok.inj hlow).symm
      rw [eval_number, Option.some_inj, Value.int.injEq] at hposition
      exact ⟨position, j, by show position = index; omega, hj, hlookup⟩
    | fromEnd distance =>
      rw [hcard, hloc] at hlow
      obtain ⟨position, j, hposition, hj, hlookup⟩ := hindex (Except.ok.inj hlow).symm
      obtain ⟨v₁, v₂, hv₁, hv₂, hrun⟩ := eval_binary.mp hposition
      rw [eval_authOutputCount, Option.some_inj] at hv₁
      rw [eval_number, Option.some_inj] at hv₂
      rw [← hv₁, ← hv₂] at hrun
      have hsub := Value.int.inj (Option.some_inj.mp hrun)
      exact ⟨position, j, by show position + distance = _; omega, hj, hlookup⟩
  | range bounds =>
    refine ⟨fun hone => (nomatch hone), fun bounds' hb => ?_⟩
    cases hb
    cases hloc : interaction.location with
    | fromStart _ | fromEnd _ => rw [hcard, hloc] at hlow; cases hlow
    | range start singletonCount =>
      rw [hcard, hloc] at hlow
      rw [← Except.ok.inj hlow] at h
      obtain ⟨counted, hcount, h⟩ := execAll_cons.mp h
      obtain ⟨v, hv, _, hcounted⟩ := exec_define.mp hcount
      rw [eval_countWithout eval_authOutputCount, Option.some_inj] at hv
      have hlookup : counted.env.lookup (hiddenOutputCountName interaction.handle) = some v := by
        rw [hcounted, List.lookup_cons_self]
      rw [← hv] at hlookup
      obtain ⟨hbounds, hnil⟩ := exec_bounds hlookup h
      exact ⟨start, singletonCount, _, rfl, rfl, hbounds, execAll_nil.mp hnil ▸ hlookup⟩

/-- what the output checks of a passing entry establish -/
structure OutputsChecked (entry : EntryModel) (ctx : ScriptContext) (env : Env) : Prop where
  /-- the count, without a range -/
  exact_ : ∀ count, exactCurrentOutputCount entry = some count →
    (ctx.tx.authOutputs ctx.active).length = count
  /-- each singleton is found where it stands -/
  singletons : ∀ output ∈ entry.current.outputs.items, output.cardinality = .one →
    ∃ position j : Nat, output.location.Owns (ctx.tx.authOutputs ctx.active).length position ∧
      (ctx.tx.authOutputs ctx.active)[position]? = some j ∧
      env.lookup (hiddenOutputIdxName output.handle) = some (.int j)
  /-- the range has its declared cardinality -/
  ranges : ∀ output ∈ entry.current.outputs.items, ∀ bounds,
    output.cardinality = .range bounds → ∃ start singletonCount n,
      output.location = .range start singletonCount ∧
      n = ((ctx.tx.authOutputs ctx.active).length : Int) - singletonCount ∧
      (bounds.minimum ≤ n ∧ n ≤ bounds.maximum) ∧
      env.lookup (hiddenOutputCountName output.handle) = some (.int n)
  /-- a coordinated leader authorizes as many outputs as its covenant has -/
  coordinates : coordinatesCurrentOutputs entry = true →
    ∀ covenant, env.lookup hiddenCovIdName = some (.bytes covenant) →
      (ctx.tx.covOutputs covenant).length = (ctx.tx.authOutputs ctx.active).length

theorem currentOutputPrelude_ok {entry : EntryModel} {statements : List SilStatement}
    (hlow : currentOutputPrelude entry = .ok statements)
    (h : execAll ctx statements frame = some out) : OutputsChecked entry ctx out.env := by
  obtain ⟨locations, hlocations, hstatements⟩ := bind_eq_ok.mp hlow
  rw [← pure_eq_ok.mp hstatements] at h
  obtain ⟨located, hlocated, hcoordination⟩ := execAll_append.mp h
  obtain ⟨counted, hcount, hlocated⟩ := execAll_append.mp hlocated
  have hitem : ∀ output ∈ entry.current.outputs.items, ∃ statements before after,
      outputLocation output = .ok statements ∧ execAll ctx statements before = some after ∧
      after.env.Sub out.env := by
    intro output houtput
    obtain ⟨part, hmem, hpart⟩ := mapM_ok_of_mem hlocations houtput
    obtain ⟨before, after, _, hexec, hafter⟩ := execAll_flatten hlocated hmem
    exact ⟨part, before, after, hpart, hexec,
      hafter.names.trans (execAll_extends hcoordination).names⟩
  refine ⟨fun count hexact => ?_, fun output houtput hone => ?_, fun output houtput bounds hb => ?_,
    fun hcoordinates covenant hcov => ?_⟩
  · rw [hexact] at hcount
    obtain ⟨_, hcomparison, _⟩ := execAll_cons.mp hcount
    obtain ⟨⟨v₁, v₂, hv₁, hv₂, hrun⟩, _⟩ := exec_comparison.mp hcomparison
    rw [eval_authOutputCount, Option.some_inj] at hv₁
    rw [eval_number, Option.some_inj] at hv₂
    rw [← hv₁, ← hv₂, run_eq, Value.int.injEq] at hrun
    omega
  · obtain ⟨_, _, _, hlow', hexec, hsub⟩ := hitem output houtput
    obtain ⟨position, j, howns, hj, hlookup⟩ := (outputLocation_ok hlow' hexec).1 hone
    exact ⟨position, j, howns, hj, hsub hlookup⟩
  · obtain ⟨_, _, _, hlow', hexec, hsub⟩ := hitem output houtput
    obtain ⟨start, singletonCount, n, hloc, hn, hbounds, hlookup⟩ :=
      (outputLocation_ok hlow' hexec).2 bounds hb
    exact ⟨start, singletonCount, n, hloc, hn, hbounds, hsub hlookup⟩
  · rw [hcoordinates, if_pos rfl] at hcoordination
    obtain ⟨_, hcomparison, hnil⟩ := execAll_cons.mp hcoordination
    obtain ⟨⟨v₁, v₂, hv₁, hv₂, hrun⟩, hmid⟩ := exec_comparison.mp hcomparison
    rw [execAll_nil.mp hnil, hmid] at hcov
    rw [eval_authOutputCount, Option.some_inj] at hv₂
    obtain ⟨v, hv, hcount⟩ := eval_call₁.mp hv₁
    rw [eval_identifier, hcov, Option.some_inj] at hv
    rw [← hv] at hcount
    rw [← Option.some_inj.mp hcount, ← hv₂, run_eq, Value.int.injEq] at hrun
    omega

/-! ## the group -/

/-- the position and count rule of a policy, over the inputs of the covenant -/
def CurrentInputGroupPolicy.Holds (inputs : List Nat) (active : Nat) :
    CurrentInputGroupPolicy → Prop
  | .batchable => True
  | .leaderRanged => inputs.head? = some active
  | .leaderFixed count => inputs.length = count ∧ (1 < count → inputs.head? = some active)
  | .delegate minimumCount => minimumCount ≤ inputs.length ∧ inputs.head? ≠ some active

theorem groupPolicyChecks_ok {policy : CurrentInputGroupPolicy}
    (hcov : frame.env.lookup hiddenCovIdName = some (.bytes covenant))
    (h : execAll ctx (groupPolicyChecks policy) frame = some out) :
    CurrentInputGroupPolicy.Holds (ctx.tx.covInputs covenant) ctx.active policy := by
  cases policy with
  | batchable => exact trivial
  | leaderRanged =>
    obtain ⟨_, hfirst, _⟩ := execAll_cons.mp h
    exact (exec_first hcov hfirst).1
  | leaderFixed count =>
    obtain ⟨_, hcount, h⟩ := execAll_cons.mp h
    obtain ⟨⟨v₁, v₂, hv₁, hv₂, hrun⟩, hmid⟩ := exec_comparison.mp hcount
    rw [eval_covInputCount hcov, Option.some_inj] at hv₁
    rw [eval_number, Option.some_inj] at hv₂
    rw [← hv₁, ← hv₂, run_eq, Value.int.injEq] at hrun
    refine ⟨by omega, fun hone => ?_⟩
    rw [if_pos hone, hmid] at h
    obtain ⟨_, hfirst, _⟩ := execAll_cons.mp h
    exact (exec_first hcov hfirst).1
  | delegate minimumCount =>
    obtain ⟨_, hcount, h⟩ := execAll_cons.mp h
    obtain ⟨⟨v₁, v₂, hv₁, hv₂, hrun⟩, hmid⟩ := exec_comparison.mp hcount
    rw [eval_covInputCount hcov, Option.some_inj] at hv₁
    rw [eval_number, Option.some_inj] at hv₂
    rw [← hv₁, ← hv₂, run_ge] at hrun
    refine ⟨by omega, ?_⟩
    rw [hmid] at h
    obtain ⟨_, hne, _⟩ := execAll_cons.mp h
    obtain ⟨⟨w₁, w₂, hw₁, hw₂, hrun'⟩, _⟩ := exec_comparison.mp hne
    obtain ⟨k, j, hk, hj, hw⟩ := eval_covInputIdx hcov hw₁
    rw [eval_number, Option.some_inj, Value.int.injEq] at hk
    rw [eval_activeInputIndex, Option.some_inj] at hw₂
    rw [run_ne, hw, ← hw₂] at hrun'
    rw [List.head?_eq_getElem?, show (0 : Nat) = k by omega, hj]
    intro heq
    exact hrun' (congrArg (fun n : Nat => Value.int n) (Option.some_inj.mp heq))

/-- a consumed handle with the proof that its positions passed -/
def ConsumedChecked (app : App) (witnesses : List TemplateWitnessSpec) (actor : ActorModel)
    (entry : EntryModel) (ctx : ScriptContext) (covenant : Bytes) (env : Env)
    (interaction : EntryInteraction) : Prop :=
  let slotOffset := (currentGroupPolicy app actor entry).slotOffset
  let count := (ctx.tx.covInputs covenant).length
  ∃ reference proof, consumedReference app actor entry interaction = .ok reference ∧
    inputTemplateProof witnesses actor entry interaction reference = .ok proof ∧
    (∀ position, interaction.location.Owns (count - slotOffset) position →
      Authenticated ctx covenant env proof (slotOffset + position)) ∧
    ∀ bounds start singletonCount, interaction.cardinality = .range bounds →
      interaction.location = .range start singletonCount →
      bounds.minimum ≤ count - (slotOffset + singletonCount : Nat) ∧
      count - (slotOffset + singletonCount : Nat) ≤ bounds.maximum

/-- what the input checks of a passing entry establish -/
structure InputsChecked (app : App) (witnesses : List TemplateWitnessSpec) (actor : ActorModel)
    (entry : EntryModel) (ctx : ScriptContext) (covenant : Bytes) (env out : Env) : Prop where
  policy : CurrentInputGroupPolicy.Holds (ctx.tx.covInputs covenant) ctx.active
    (currentGroupPolicy app actor entry)
  consumed : currentGroupPolicy app actor entry ≠ .batchable →
    ∀ interaction ∈ entry.current.inputs.items,
      ConsumedChecked app witnesses actor entry ctx covenant env interaction
  guard : requiresOptionalDelegateGuard app actor entry = true →
    (ctx.tx.covInputs covenant).head? = some ctx.active
  covId : currentGroupPolicy app actor entry ≠ .batchable →
    out.lookup hiddenCovIdName = some (.bytes covenant)

theorem exec_defineCovId (hc : ctx.tx.inputCovenantId ctx.active = some covenant)
    (h : defineCovId.exec ctx frame = some out) :
    frame.env.Sub out.env ∧ out.env.lookup hiddenCovIdName = some (.bytes covenant) := by
  obtain ⟨v, hv, hnew, hout⟩ := exec_define.mp h
  obtain ⟨v₁, hv₁, hrun⟩ := eval_call₁.mp hv
  rw [eval_activeInputIndex, Option.some_inj] at hv₁
  rw [← hv₁] at hrun
  obtain ⟨input, hinput, hrun⟩ := Option.bind_eq_some_iff.mp hrun
  obtain ⟨id, hid, hrun⟩ := Option.bind_eq_some_iff.mp hrun
  obtain ⟨k, hk, hget⟩ := nth_eq_some.mp hinput
  unfold Transaction.inputCovenantId at hc
  rw [show ctx.active = k by omega, hget, Option.bind_some, hid, Option.some_inj] at hc
  refine ⟨hout ▸ Env.Sub.define hnew, ?_⟩
  rw [hout, List.lookup_cons_self, ← Option.some_inj.mp hrun, hc]

theorem slotOffset_le (policy : CurrentInputGroupPolicy) : policy.slotOffset ≤ 1 := by
  cases policy <;> exact Nat.le_of_ble_eq_true rfl

theorem entryInputPlan_ok {app : App} {actor : ActorModel} {entry : EntryModel}
    {inputs : EntryInputPlan} (hinputs : entryInputPlan app actor entry = .ok inputs) :
    inputs.currentGroupPolicy = currentGroupPolicy app actor entry ∧
      inputs.requiresOptionalDelegateGuard = requiresOptionalDelegateGuard app actor entry ∧
      entry.current.inputs.items.mapM (fun interaction => do
        return (interaction, ← consumedReference app actor entry interaction)) =
        .ok inputs.consumed := by
  unfold entryInputPlan at hinputs
  cases hrange : unsupportedRange actor entry with
  | some _ => rw [hrange] at hinputs; cases hinputs
  | none =>
    rw [hrange] at hinputs
    obtain ⟨consumed, hconsumed, hinputs⟩ := bind_eq_ok.mp hinputs
    obtain ⟨observed, _, hinputs⟩ := bind_eq_ok.mp hinputs
    rw [← pure_eq_ok.mp hinputs]
    exact ⟨rfl, rfl, hconsumed⟩

/-- **Everything that the input checks of a passing entry establish.** -/
theorem currentInputPrelude_ok {app : App} {plan : CompilerRoutePlan} {actor : ActorModel}
    {entry : EntryModel} {statements : List SilStatement}
    (hlow : currentInputPrelude app plan actor entry = .ok statements)
    (hc : ctx.tx.inputCovenantId ctx.active = some covenant)
    (h : execAll ctx statements frame = some out) :
    ∃ witnesses, templateWitnesses app plan actor entry = .ok witnesses ∧
      InputsChecked app witnesses actor entry ctx covenant frame.env out.env := by
  obtain ⟨inputs, hinputs, hlow⟩ := bind_eq_ok.mp hlow
  obtain ⟨witnesses, hwitnesses, hlow⟩ := bind_eq_ok.mp hlow
  obtain ⟨checks, hchecks, hlow⟩ := bind_eq_ok.mp hlow
  obtain ⟨hpolicy, hguard, hconsumed⟩ := entryInputPlan_ok hinputs
  rw [← pure_eq_ok.mp hlow] at h
  obtain ⟨mid, hmid, hrest⟩ := execAll_append.mp h
  refine ⟨witnesses, hwitnesses, ?_⟩
  have hactive : 1 ≤ (ctx.tx.covInputs covenant).length :=
    List.length_pos_of_mem (Transaction.mem_covInputs.mpr hc)
  have hslot := (slotOffset_le (currentGroupPolicy app actor entry)).trans hactive
  have hguarded : requiresOptionalDelegateGuard app actor entry = true →
      (ctx.tx.covInputs covenant).head? = some ctx.active := by
    intro hg
    unfold optionalDelegateGuard at hrest
    rw [hguard, if_pos hg] at hrest
    obtain ⟨_, hdefine, hrest⟩ := execAll_cons.mp hrest
    obtain ⟨_, hfirst, _⟩ := execAll_cons.mp hrest
    exact (exec_first (exec_defineCovId hc hdefine).2 hfirst).1
  unfold consumedGroupChecks at hchecks
  by_cases hbatch : currentGroupPolicy app actor entry = .batchable
  · refine ⟨?_, fun hne => absurd hbatch hne, hguarded, fun hne => absurd hbatch hne⟩
    rw [hbatch]
    exact trivial
  · rw [hpolicy, if_neg hbatch] at hchecks
    obtain ⟨reads, hreads, hchecks⟩ := bind_eq_ok.mp hchecks
    rw [← pure_eq_ok.mp hchecks] at hmid
    obtain ⟨checked, hpolicyChecks, hreadAll⟩ := execAll_append.mp hmid
    obtain ⟨defined, hdefine, hpolicyChecks⟩ := execAll_cons.mp hpolicyChecks
    obtain ⟨hsub, hcov⟩ := exec_defineCovId hc hdefine
    have hchecked := (execAll_extends hpolicyChecks).names
    refine ⟨groupPolicyChecks_ok hcov hpolicyChecks, fun _ interaction hinteraction => ?_,
      hguarded, fun _ => ?_⟩
    · obtain ⟨input, hinput, hreference⟩ := mapM_ok_of_mem hconsumed hinteraction
      obtain ⟨reference, hreference, hpair⟩ := bind_eq_ok.mp hreference
      rw [← pure_eq_ok.mp hpair] at hinput
      obtain ⟨part, hpart, hread⟩ := mapM_ok_of_mem hreads hinput
      obtain ⟨proof, hproof, hread⟩ := bind_eq_ok.mp hread
      obtain ⟨before, after, hbefore, hexec, _⟩ := execAll_flatten hreadAll hpart
      have hnames := hsub.trans (hchecked.trans hbefore.names)
      obtain ⟨hpositions, hbounds⟩ := consumedInput_ok hread hslot
        (hbefore.names (hchecked hcov)) hexec
      refine ⟨reference, proof, hreference, hproof, fun position howns => ?_, hbounds⟩
      exact (hpositions position howns).mono hnames
    · exact (execAll_extends hrest).names ((execAll_extends hreadAll).names (hchecked hcov))

end Argent.Codegen
