import Argent.Codegen.RangeAccessSound
import Argent.Codegen.RangeCacheSound

/-!
# Accesses stay in their range

The values of lowered expressions, in a run that passed the preludes of its entry with their caches.

* `SafeIndex.lt_count`      a safe index that has a value is below the count;
* `ReadsItem`              the value of an access is read from an item of its handle;
* `BodyOf`                 the body of an entry, as the planners accept it;
* `InputRangeRun`, `OutputRangeRun`      the counts of a range in a passing run;
* `rangeAccesses_checked`      **every access of an accepted body reads an item of its handle**.
-/

set_option linter.unusedSectionVars false

namespace Argent.Codegen
open Argent.Model Argent.Sil Argent.Fallible

variable {run : BodyRun} {range : RangeValueLocation} {count : Nat} {index lowered checked expr : Expr}
variable {v : BodyValue}

/-! ## evaluation -/

section
variable {span : Span}

theorem eval_apply₁ {name : String} {arg : Expr} (h : run.eval (.apply name [arg]) = some v) :
    ∃ value, run.eval arg = some value ∧ run.runCall name [value] = some v := by
  unfold Expr.apply at h
  rw [BodyRun.eval, BodyRun.evalArgs, BodyRun.evalArgs] at h
  obtain ⟨args, hargs, h⟩ := Option.bind_eq_some_iff.mp h
  obtain ⟨value, hvalue, hargs⟩ := Option.bind_eq_some_iff.mp hargs
  cases hargs
  exact ⟨value, hvalue, h⟩

theorem eval_apply₂ {name : String} {first second : Expr}
    (h : run.eval (.apply name [first, second]) = some v) :
    ∃ value value', run.eval first = some value ∧ run.eval second = some value' ∧
      run.runCall name [value, value'] = some v := by
  unfold Expr.apply at h
  rw [BodyRun.eval, BodyRun.evalArgs, BodyRun.evalArgs, BodyRun.evalArgs] at h
  obtain ⟨args, hargs, h⟩ := Option.bind_eq_some_iff.mp h
  obtain ⟨value, hvalue, hargs⟩ := Option.bind_eq_some_iff.mp hargs
  obtain ⟨values, hvalues, hargs⟩ := Option.bind_eq_some_iff.mp hargs
  obtain ⟨value', hvalue', hvalues⟩ := Option.bind_eq_some_iff.mp hvalues
  cases hvalues
  cases hargs
  exact ⟨value, value', hvalue, hvalue', h⟩

theorem runCall_checked {index count : BodyValue}
    (h : run.runCall hiddenCheckedRangeIndexName [index, count] = some v) :
    ∃ i n, index = .scalar (.int i) ∧ count = .scalar (.int n) ∧ 0 ≤ i ∧ i < n ∧
      v = .scalar (.int i) := by
  unfold BodyRun.runCall at h
  rw [if_pos rfl] at h
  split at h
  next i n hargs =>
    obtain ⟨checked, hchecked, hv⟩ := Option.map_eq_some_iff.mp h
    unfold checkedRangeIndexHelper at hchecked
    split_ifs at hchecked with hge hlt
    rw [Option.some_inj] at hchecked
    obtain ⟨rfl, hrest⟩ := List.cons.inj hargs
    obtain ⟨rfl, -⟩ := List.cons.inj hrest
    exact ⟨i, n, rfl, rfl, hge, hlt, by rw [← hv, hchecked]⟩
  next => cases h

theorem hiddenCheckedRangeIndexName_ne {name : String}
    (h : name.toList.head? ≠ hiddenCheckedRangeIndexName.toList.head?) :
    name ≠ hiddenCheckedRangeIndexName := by
  intro heq
  exact h (congrArg (fun name : String => name.toList.head?) heq)

theorem runCall_opCovInputIdx {covenant : Bytes} {position : Nat}
    (h : run.runCall "OpCovInputIdx"
      [.scalar (.bytes covenant), .scalar (.int position)] = some v) :
    ∃ input, (run.ctx.tx.covInputs covenant)[position]? = some input ∧ v = .scalar (.int input) := by
  unfold BodyRun.runCall at h
  rw [if_neg (hiddenCheckedRangeIndexName_ne (by decide)), if_pos rfl] at h
  obtain ⟨args, hargs, h⟩ := Option.bind_eq_some_iff.mp h
  cases hargs
  obtain ⟨value, hvalue, h⟩ := Option.bind_eq_some_iff.mp h
  obtain ⟨input, hinput, hvalue⟩ := Option.bind_eq_some_iff.mp hvalue
  obtain ⟨k, hk, hget⟩ := nth_eq_some.mp hinput
  obtain rfl := Int.natCast_inj.mp hk
  cases hvalue
  cases h
  exact ⟨input, hget, rfl⟩

theorem runCall_opAuthOutputIdx {position : Nat}
    (h : run.runCall "OpAuthOutputIdx"
      [.scalar (.int run.ctx.active), .scalar (.int position)] = some v) :
    ∃ output, (run.ctx.tx.authOutputs run.ctx.active)[position]? = some output ∧
      v = .scalar (.int output) := by
  unfold BodyRun.runCall at h
  rw [if_neg (hiddenCheckedRangeIndexName_ne (by decide)), if_neg (by decide), if_neg (by decide),
    if_pos rfl] at h
  obtain ⟨args, hargs, h⟩ := Option.bind_eq_some_iff.mp h
  cases hargs
  obtain ⟨value, hvalue, h⟩ := Option.bind_eq_some_iff.mp h
  obtain ⟨output, houtput, hvalue⟩ := Option.bind_eq_some_iff.mp hvalue
  obtain ⟨k, hk, hget⟩ := nth_eq_some.mp houtput
  obtain rfl := Int.natCast_inj.mp hk
  rw [Int.toNat_natCast] at hget
  cases hvalue
  cases h
  exact ⟨output, hget, rfl⟩

theorem runCall_opInputCovenantId {input : Nat}
    (h : run.runCall "OpInputCovenantId" [.scalar (.int input)] = some v) :
    ∃ covenant, run.ctx.tx.inputCovenantId input = some covenant ∧
      v = .scalar (.bytes covenant) := by
  unfold BodyRun.runCall at h
  rw [if_neg (hiddenCheckedRangeIndexName_ne (by decide)), if_neg (by decide), if_pos rfl] at h
  obtain ⟨args, hargs, h⟩ := Option.bind_eq_some_iff.mp h
  cases hargs
  obtain ⟨value, hvalue, h⟩ := Option.bind_eq_some_iff.mp h
  obtain ⟨found, hfound, hvalue⟩ := Option.bind_eq_some_iff.mp hvalue
  obtain ⟨covenant, hcovenant, hvalue⟩ := Option.bind_eq_some_iff.mp hvalue
  obtain ⟨k, hk, hget⟩ := nth_eq_some.mp hfound
  obtain rfl := Int.natCast_inj.mp hk
  cases hvalue
  cases h
  refine ⟨covenant, ?_, rfl⟩
  unfold Transaction.inputCovenantId
  rw [hget]
  exact hcovenant

end

/-! ## safe indexes -/

/-- the count of a range in a run, at least its declared minimum -/
structure CountedRange (run : BodyRun) (range : RangeValueLocation) (count : Nat) : Prop where
  named : run.names range.count = some (.scalar (.int count))
  minimum : range.minimum ≤ count

/-- **A safe index that has a value is below the count.** -/
theorem SafeIndex.lt_count (hsafe : SafeIndex range lowered checked)
    (hcount : CountedRange run range count) (h : run.eval checked = some v) :
    ∃ j : Nat, v = .scalar (.int j) ∧ j < count := by
  cases hsafe with
  | @literal span value below =>
    rw [BodyRun.eval] at h
    have hminimum := hcount.minimum
    exact ⟨value, (Option.some_inj.mp h).symm, by omega⟩
  | checked =>
    obtain ⟨i, n, -, hn, hcall⟩ := eval_apply₂ h
    obtain ⟨k, m, -, rfl, hge, hlt, rfl⟩ := runCall_checked hcall
    rw [eval_generated, hcount.named] at hn
    cases hn
    exact ⟨k.toNat, by rw [Int.toNat_of_nonneg hge], by omega⟩

theorem eval_rangePosition (hsafe : SafeIndex range lowered checked)
    (hcount : CountedRange run range count) (h : run.eval (rangePosition range checked) = some v) :
    ∃ j : Nat, run.eval checked = some (.scalar (.int j)) ∧ j < count ∧
      v = .scalar (.int (range.firstIndex + j : Nat)) := by
  unfold rangePosition at h
  split_ifs at h with hfirst
  · obtain ⟨j, rfl, hlt⟩ := hsafe.lt_count hcount h
    refine ⟨j, h, hlt, ?_⟩
    rw [hfirst, Nat.zero_add]
  · rw [BodyRun.eval, BodyRun.eval] at h
    obtain ⟨first, hfirst, h⟩ := Option.bind_eq_some_iff.mp h
    cases hfirst
    obtain ⟨first, hfirst, h⟩ := Option.bind_eq_some_iff.mp h
    cases hfirst
    obtain ⟨value, hvalue, h⟩ := Option.bind_eq_some_iff.mp h
    obtain ⟨j, rfl, hlt⟩ := hsafe.lt_count hcount hvalue
    cases h
    refine ⟨j, hvalue, hlt, ?_⟩
    push_cast
    rfl

theorem int?_eq_some {value : BodyValue} {i : Int} (h : value.int? = some i) :
    value = .scalar (.int i) := by
  unfold BodyValue.int? at h
  split at h
  next => rw [Option.some_inj.mp h]
  next => cases h

theorem eval_arrayIndex {span : Span} {source : Expr}
    (h : run.eval (.arrayIndex span source index) = some v) : ∃ items i,
      run.eval source = some (.array items) ∧ run.eval index = some (.scalar (.int i)) ∧
      nth items i = some v := by
  rw [BodyRun.eval] at h
  obtain ⟨value, hvalue, h⟩ := Option.bind_eq_some_iff.mp h
  obtain ⟨value', hvalue', h⟩ := Option.bind_eq_some_iff.mp h
  obtain ⟨i, hi, h⟩ := Option.bind_eq_some_iff.mp h
  obtain rfl := int?_eq_some hi
  cases value with
  | array items => exact ⟨items, i, hvalue, hvalue', h⟩
  | scalar value => cases h
  | record fields => cases h

/-! ## items of a clause -/

/-- a position of a clause of `n` items that stands for this item alone -/
structure ItemAt (section_ : InteractionSection) (n position : Nat) (item : EntryInteraction) :
    Prop where
  mem : item ∈ section_.items
  inside : position ∈ item.location.positions n
  alone : ∀ other ∈ section_.items, other ≠ item → position ∉ other.location.positions n

theorem itemAt_of_mem {section_ : InteractionSection} {n position : Nat} {item : EntryInteraction}
    (hn : Admits (section_.items.map (·.cardinality)) n) (hitem : item ∈ section_.items)
    (hposition : position ∈ item.location.positions n) : ItemAt section_ n position item := by
  refine ⟨hitem, hposition, fun other hother hne hshared => ?_⟩
  have hnodup : (section_.items.flatMap fun item => item.location.positions n).Nodup := by
    rw [section_cover section_ hn]
    exact List.nodup_range
  obtain ⟨-, hpairwise⟩ := List.nodup_flatMap.mp hnodup
  have : Std.Symm (Function.onFun List.Disjoint fun item : EntryInteraction =>
      item.location.positions n) := ⟨fun _ _ hdisjoint => List.Disjoint.symm hdisjoint⟩
  exact hpairwise.forall hitem hother hne.symm hposition hshared

/-- an input of the transaction that stands for an item of a `consumes` clause, and for no other -/
def ReadsInput (entry : EntryModel) (tx : Transaction) (covenant : Bytes) (item : EntryInteraction)
    (input : Nat) : Prop :=
  ∃ n position, Consumes entry (tx.covInputs covenant).length n ∧
    ItemAt entry.current.inputs n position item ∧
    (tx.covInputs covenant)[sectionOffset entry + position]? = some input

/-- an output of the transaction that stands for an item of an `emits` clause, and for no other -/
def ReadsOutput (entry : EntryModel) (tx : Transaction) (active : Nat) (item : EntryInteraction)
    (output : Nat) : Prop :=
  ∃ position, ItemAt entry.current.outputs (tx.authOutputs active).length position item ∧
    (tx.authOutputs active)[position]? = some output

/-- the value of an access is read from an item of its handle -/
inductive ReadsItem (body : BodyLowering) (entry : EntryModel) (run : BodyRun) (covenant : Bytes) :
    Expr → BodyValue → Prop
  | inputValue {span itemSpan handleSpan : Span} {index : Expr} {item : EntryInteraction}
    {input : Nat} (reads : ReadsInput entry run.ctx.tx covenant item input) :
    ReadsItem body entry run covenant
      (.fieldAccess span (.arrayIndex itemSpan (.identifier handleSpan item.handle) index) "value")
      (.scalar (.int (run.amount input)))
  | inputCovenantId {span itemSpan handleSpan : Span} {index : Expr} {item : EntryInteraction}
    {input : Nat} (reads : ReadsInput entry run.ctx.tx covenant item input) :
    ReadsItem body entry run covenant
      (.fieldAccess span (.arrayIndex itemSpan (.identifier handleSpan item.handle) index) "cov_id")
      (.scalar (.bytes covenant))
  | inputField {span itemSpan handleSpan : Span} {index : Expr} {item : EntryInteraction}
    {field : String} {input : Nat} {spent : TransactionInput} {v : BodyValue}
    (reads : ReadsInput entry run.ctx.tx covenant item input)
    (spends : run.ctx.tx.inputs[input]? = some spent)
    (value : run.stateField item.handle field spent = some v) :
    ReadsItem body entry run covenant
      (.fieldAccess span (.arrayIndex itemSpan (.identifier handleSpan item.handle) index) field) v
  /-- the authored state: every field of it is that of the state of the input -/
  | inputState {span nameSpan itemSpan handleSpan : Span} {index : Expr} {item : EntryInteraction}
    {input : Nat} {spent : TransactionInput} {planned : PlannedEntryInputReference}
    {values : List (String × BodyValue)}
    (reads : ReadsInput entry run.ctx.tx covenant item input)
    (spends : run.ctx.tx.inputs[input]? = some spent)
    (reference : body.referenceUses handleSpan = some planned)
    (fields : ∀ field ∈ planned.fields,
      values.lookup field.name = run.stateField item.handle field.name spent) :
    ReadsItem body entry run covenant
      (.call span "state" nameSpan
        [.arrayIndex itemSpan (.identifier handleSpan item.handle) index]) (.record values)
  | outputValue {span itemSpan handleSpan : Span} {index : Expr} {item : EntryInteraction}
    {output : Nat} {paid : TransactionOutput}
    (reads : ReadsOutput entry run.ctx.tx run.ctx.active item output)
    (pays : run.ctx.tx.outputs[output]? = some paid) :
    ReadsItem body entry run covenant
      (.fieldAccess span (.arrayIndex itemSpan (.identifier handleSpan item.handle) index) "value")
      (.scalar (.int paid.value.toNat))

/-! ## accepted bodies -/

section
variable (body : BodyLowering) (actor : ActorModel) (entry : EntryModel)
variable (consumes emits : Nat → Option LocalId)

/-- a name that is bound to the local of an item of a clause -/
def BoundTo (locals : Nat → Option LocalId) (section_ : InteractionSection) (span : Span)
    (item : EntryInteraction) : Prop :=
  ∃ index id, section_.items[index]? = some item ∧ locals index = some id ∧
    body.binding span = some (.local id)

/-- the body of an entry, as the planners accept it: `references` are those to the consumed inputs -/
structure BodyOf (references : List PlannedEntryInputReference) (exprs : List Expr) : Prop where
  /-- the ranges are those of the clauses -/
  bindings : bodyBindings (sectionOffset entry) entry consumes emits = .ok body.bindings
  consumed : ∀ i j id, consumes i = some id → consumes j = some id → i = j
  emitted : ∀ i j id, emits i = some id → emits j = some id → i = j
  /-- the planners record paths -/
  sited : ∀ expr ∈ exprs, body.Sited expr
  /-- a name that is bound to the local of an item is its handle -/
  named : ∀ expr ∈ exprs, ∀ span name, Expr.identifier span name ∈ expr.nodes →
    ∀ item, BoundTo body consumes entry.current.inputs span item ∨
      BoundTo body emits entry.current.outputs span item → name = item.handle
  /-- such a name of a consumed input stands for the reference to it -/
  referenced : ∀ index id span planned, index < entry.current.inputs.items.length →
    consumes index = some id → body.binding span = some (.local id) →
    body.referenceUses span = some planned →
      references[index]? = some { planned with payloadDigest := none }
  /-- no literal index of an input is refused -/
  inputs : validateInputRanges body.binding entry consumes exprs = .ok ⟨⟩
  /-- no literal index of the value of an output is refused -/
  outputs : validateOutputRanges body.binding actor.name entry.name entry emits exprs = .ok ⟨⟩

/-- the body runs with the names and the arrays that the preludes have left -/
def BodyRun.Follows (run : BodyRun) (left : CacheFrame) : Prop :=
  ∀ name v, run.seen left name = some v → run.names name = some v

end

section
variable {body : BodyLowering} {entry : EntryModel} {consumes emits : Nat → Option LocalId}
variable {span : Span}

theorem inputRange_bound
    (hbindings : bodyBindings (sectionOffset entry) entry consumes emits = .ok body.bindings)
    {covenantId : String} (h : body.inputRange span = some (covenantId, range)) :
    ∃ item bounds start singletonCount, BoundTo body consumes entry.current.inputs span item ∧
      item.cardinality = .range bounds ∧ item.location = .range start singletonCount ∧
      covenantId = hiddenCovIdName ∧
      range = ⟨sectionOffset entry + start, hiddenInputCountName item.handle, bounds.minimum⟩ := by
  obtain ⟨inputs, hinputs, hrest⟩ := bind_eq_ok.mp hbindings
  obtain ⟨ranges, -, hreturn⟩ := bind_eq_ok.mp hrest
  have hvalues : body.bindings.inputValues = .ofList inputs := by rw [← pure_eq_ok.mp hreturn]
  unfold BodyLowering.inputRange BodyLowering.inputValue BodyBindings.inputValue at h
  split at h
  next found range' hvalue =>
    cases h
    split at hvalue
    next id hbinding =>
      rw [hvalues] at hvalue
      obtain ⟨⟨item, index⟩, hitem, hlocation⟩ :=
        mem_of_mapM_ok hinputs (BTreeMap.mem_of_get_ofList hvalue)
      obtain ⟨location, hlocation, hid⟩ := bind_eq_ok.mp hlocation
      obtain ⟨id', hconsumes, hpair⟩ := bind_eq_ok.mp hid
      rw [okOr_eq_ok] at hconsumes
      cases pure_eq_ok.mp hpair
      have hget := List.mem_zipIdx_iff_getElem?.mp hitem
      unfold inputValueLocation at hlocation
      split at hlocation
      next bounds start singletonCount hcardinality hstart =>
        cases hlocation
        exact ⟨item, bounds, start, singletonCount, ⟨index, id, hget, hconsumes, hbinding⟩,
          hcardinality, hstart, rfl, rfl⟩
      next => cases hlocation
      next => cases hlocation
      next => cases hlocation
    next => cases hvalue
  next => cases h
  next => cases h

theorem outputRange_bound
    (hbindings : bodyBindings (sectionOffset entry) entry consumes emits = .ok body.bindings)
    (h : body.outputRange span = some range) :
    ∃ item bounds start singletonCount, BoundTo body emits entry.current.outputs span item ∧
      item.cardinality = .range bounds ∧ item.location = .range start singletonCount ∧
      range = ⟨start, hiddenOutputCountName item.handle, bounds.minimum⟩ := by
  obtain ⟨inputs, -, hrest⟩ := bind_eq_ok.mp hbindings
  obtain ⟨ranges, hranges, hreturn⟩ := bind_eq_ok.mp hrest
  have hvalues : body.bindings.outputRanges = .ofList ranges := by rw [← pure_eq_ok.mp hreturn]
  unfold BodyLowering.outputRange BodyBindings.outputRange at h
  split at h
  next id hbinding =>
    rw [hvalues] at h
    obtain ⟨⟨index, location⟩, hitem, hlocation⟩ :=
      mem_of_mapM_ok hranges (BTreeMap.mem_of_get_ofList h)
    obtain ⟨id', hemits, hpair⟩ := bind_eq_ok.mp hlocation
    rw [okOr_eq_ok] at hemits
    cases pure_eq_ok.mp hpair
    obtain ⟨⟨item, index'⟩, hmem, hfound⟩ := List.mem_filterMap.mp hitem
    obtain ⟨location', hlocation', hpair⟩ := Option.map_eq_some_iff.mp hfound
    cases hpair
    have hget := List.mem_zipIdx_iff_getElem?.mp hmem
    unfold outputRangeLocation at hlocation'
    split at hlocation'
    next bounds start singletonCount hcardinality hstart =>
      cases hlocation'
      exact ⟨item, bounds, start, singletonCount, ⟨_, id, hget, hemits, hbinding⟩, hcardinality,
        hstart, rfl⟩
    next => cases hlocation'
  next => cases h

/-! ## literals -/

theorem maximumAt_eq {binding : Span → Option Binding} {maxima : BTreeMap LocalId (String × Int)}
    {id : LocalId} (h : binding span = some (.local id)) :
    maximumAt binding maxima span = maxima.get id := by
  unfold maximumAt
  rw [h]

theorem invalidInputIndex_item {maxima : Span → Option (String × Int)} {itemSpan handleSpan : Span}
    {handle : String} :
    invalidInputIndex maxima (.arrayIndex itemSpan (.identifier handleSpan handle) index) =
      (maxima handleSpan).elim [] fun range => outsideRange range index := rfl

theorem invalidOutputIndex_item {maxima : Span → Option (String × Int)} {itemSpan handleSpan : Span}
    {handle : String} :
    invalidOutputIndex maxima
        (.fieldAccess span (.arrayIndex itemSpan (.identifier handleSpan handle) index) "value") =
      (maxima handleSpan).elim [] fun range => outsideRange range index := rfl

theorem outsideRange_eq_nil {range : String × Int} {value : Int}
    (h : outsideRange range index = []) (hvalue : literalIndex index = some value) :
    0 ≤ value ∧ value < range.2 := by
  unfold outsideRange at h
  rw [hvalue] at h
  dsimp only at h
  split_ifs at h with hout
  omega

theorem rejectRangeIndexes_ok {invalid : Expr → List (String × Int × Int)} {exprs : List Expr}
    {place : String} {out : PUnit.{1}} (h : rejectRangeIndexes invalid exprs place = .ok out) :
    ∀ expr ∈ exprs, ∀ node ∈ expr.nodes, invalid node = [] := by
  intro expr hexpr node hnode
  unfold rejectRangeIndexes at h
  split at h
  next => cases h
  next hnone =>
    rw [List.getLast?_eq_none_iff, List.flatMap_eq_nil_iff] at hnone
    exact hnone node (mem_nodesAll.mpr ⟨expr, hexpr, hnode⟩)

/-- **The literal indexes of a ranged input name declared positions**: the planner has refused the
others, wherever they stand. -/
theorem inputLiteral_declared {exprs : List Expr} {out : PUnit.{1}}
    (hlocals : ∀ i j id, consumes i = some id → consumes j = some id → i = j)
    (h : validateInputRanges body.binding entry consumes exprs = .ok out) :
    ∀ expr ∈ exprs, ∀ itemSpan handleSpan handle index,
      Expr.arrayIndex itemSpan (.identifier handleSpan handle) index ∈ expr.nodes →
      ∀ item bounds value, BoundTo body consumes entry.current.inputs handleSpan item →
        item.cardinality = .range bounds → literalIndex index = some value →
        0 ≤ value ∧ value < bounds.maximum := by
  intro expr hexpr itemSpan handleSpan handle index hnode item bounds value hbound hcardinality hvalue
  obtain ⟨maxima, hmaxima, hvalid⟩ := bind_eq_ok.mp h
  obtain ⟨ranges, hranges, hreturn⟩ := bind_eq_ok.mp hmaxima
  rw [← pure_eq_ok.mp hreturn] at hvalid
  obtain ⟨position, id, hitem, hid, hbinding⟩ := hbound
  -- the range of the item is recorded at its local, and no other item has that local
  have hrange : ((item, position), bounds.maximum) ∈
      entry.current.inputs.items.zipIdx.filterMap fun item =>
        item.1.cardinality.rangeBounds.map fun bounds => (item, bounds.maximum) := by
    refine List.mem_filterMap.mpr ⟨(item, position), List.mem_zipIdx_iff_getElem?.mpr hitem, ?_⟩
    rw [hcardinality]
    rfl
  obtain ⟨found, hmem, hfound⟩ := mapM_ok_of_mem hranges hrange
  obtain ⟨id', hid', hpair⟩ := bind_eq_ok.mp hfound
  rw [okOr_eq_ok, hid] at hid'
  cases hid'
  cases pure_eq_ok.mp hpair
  obtain ⟨⟨name, maximum⟩, hget⟩ := BTreeMap.exists_get_ofList hmem
  obtain ⟨⟨⟨other, position'⟩, maximum'⟩, hother, hpair⟩ :=
    mem_of_mapM_ok hranges (BTreeMap.mem_of_get_ofList hget)
  obtain ⟨id', hid', hpair⟩ := bind_eq_ok.mp hpair
  rw [okOr_eq_ok] at hid'
  cases pure_eq_ok.mp hpair
  obtain ⟨⟨other', position''⟩, hzip, hsome⟩ := List.mem_filterMap.mp hother
  obtain ⟨bounds', hbounds, hpair⟩ := Option.map_eq_some_iff.mp hsome
  cases hpair
  obtain rfl := hlocals _ _ _ hid' hid
  have hzip := List.mem_zipIdx_iff_getElem?.mp hzip
  dsimp only at hzip hbounds
  rw [hitem] at hzip
  cases hzip
  rw [hcardinality] at hbounds
  cases hbounds
  have hinvalid := rejectRangeIndexes_ok hvalid expr hexpr _ hnode
  rw [invalidInputIndex_item, maximumAt_eq hbinding, hget] at hinvalid
  exact outsideRange_eq_nil hinvalid hvalue

/-- **The literal indexes of the value of a ranged output name declared positions.** -/
theorem outputLiteral_declared {exprs : List Expr} {actorName entryName : String} {out : PUnit.{1}}
    (hlocals : ∀ i j id, emits i = some id → emits j = some id → i = j)
    (h : validateOutputRanges body.binding actorName entryName entry emits exprs = .ok out) :
    ∀ expr ∈ exprs, ∀ span itemSpan handleSpan handle index,
      Expr.fieldAccess span (.arrayIndex itemSpan (.identifier handleSpan handle) index) "value" ∈
        expr.nodes →
      ∀ item bounds value, BoundTo body emits entry.current.outputs handleSpan item →
        item.cardinality = .range bounds → 0 < bounds.maximum → literalIndex index = some value →
        0 ≤ value ∧ value < bounds.maximum := by
  intro expr hexpr span itemSpan handleSpan handle index hnode item bounds value hbound hcardinality
    hpositive hvalue
  obtain ⟨maxima, hmaxima, hvalid⟩ := bind_eq_ok.mp h
  obtain ⟨roots, hroots, hreturn⟩ := bind_eq_ok.mp hmaxima
  rw [← pure_eq_ok.mp hreturn] at hvalid
  obtain ⟨position, id, hitem, hid, hbinding⟩ := hbound
  have hplace : (item, position) ∈ entry.current.outputs.items.zipIdx :=
    List.mem_zipIdx_iff_getElem?.mpr hitem
  obtain ⟨root, hmem, hroot⟩ := mapM_ok_of_mem hroots hplace
  obtain ⟨id', hid', hpair⟩ := bind_eq_ok.mp hroot
  rw [okOr_eq_ok, hid] at hid'
  cases hid'
  cases pure_eq_ok.mp hpair
  have hrange : (id, item.handle, bounds.maximum) ∈ roots.filterMap (fun root => do
      let bounds ← root.2.cardinality.rangeBounds
      if 0 < bounds.maximum then some (root.1, root.2.handle, bounds.maximum) else none) := by
    refine List.mem_filterMap.mpr ⟨(id, item), hmem, Option.bind_eq_some_iff.mpr ⟨bounds, ?_, ?_⟩⟩
    · rw [hcardinality]
      rfl
    · rw [if_pos hpositive]
  obtain ⟨⟨name, maximum⟩, hget⟩ := BTreeMap.exists_get_ofList hrange
  obtain ⟨⟨id', other⟩, hother, hsome⟩ := List.mem_filterMap.mp (BTreeMap.mem_of_get_ofList hget)
  obtain ⟨bounds', hbounds, hsome⟩ := Option.bind_eq_some_iff.mp hsome
  split_ifs at hsome
  cases hsome
  obtain ⟨⟨other', position'⟩, hzip, hpair⟩ := mem_of_mapM_ok hroots hother
  obtain ⟨id', hid', hpair⟩ := bind_eq_ok.mp hpair
  rw [okOr_eq_ok] at hid'
  cases pure_eq_ok.mp hpair
  obtain rfl := hlocals _ _ _ hid' hid
  have hzip := List.mem_zipIdx_iff_getElem?.mp hzip
  dsimp only at hzip hbounds
  rw [hitem] at hzip
  cases hzip
  rw [hcardinality] at hbounds
  cases hbounds
  have hinvalid := rejectRangeIndexes_ok hvalid expr hexpr _ hnode
  rw [invalidOutputIndex_item, maximumAt_eq hbinding, hget] at hinvalid
  exact outsideRange_eq_nil hinvalid hvalue

/-! ## the counts of a passing run -/

variable {app : App} {plan : CompilerRoutePlan} {actor : ActorModel} {item : EntryInteraction}
variable {inputs outputs : List SilStatement} {ctx : ScriptContext} {frame out : Frame}
variable {covenant : Bytes} {bounds : RangeBounds} {start singletonCount : Nat}

/-- a ranged input in a passing run: as many items as its count, at least its minimum -/
structure InputRangeRun (entry : EntryModel) (ctx : ScriptContext) (covenant : Bytes) (env : Env)
    (item : EntryInteraction) (bounds : RangeBounds) (start n count : Nat) : Prop where
  consumes : Consumes entry (ctx.tx.covInputs covenant).length n
  positions : item.location.positions n = List.range' start count
  minimum : bounds.minimum ≤ count
  named : env.lookup (hiddenInputCountName item.handle) = some (.int count)
  covId : env.lookup hiddenCovIdName = some (.bytes covenant)

theorem inputRange_run (hinputs : currentInputPrelude app plan actor entry = .ok inputs)
    (houtputs : currentOutputPrelude entry = .ok outputs)
    (hc : ctx.tx.inputCovenantId ctx.active = some covenant)
    (hexec : execAll ctx (inputs ++ outputs) frame = some out)
    (hitem : item ∈ entry.current.inputs.items) (hcardinality : item.cardinality = .range bounds)
    (hlocation : item.location = .range start singletonCount) :
    ∃ n count, InputRangeRun entry ctx covenant out.env item bounds start n count := by
  obtain ⟨n, hn⟩ := (indexesPositioned hinputs houtputs hc hexec).consumes
  obtain ⟨mid, hmid, hrest⟩ := execAll_append.mp hexec
  obtain ⟨witnesses, -, hchecked⟩ := currentInputPrelude_ok hinputs hc hmid
  have hsub := (execAll_extends hrest).names
  have hcov := hchecked.covId (not_batchable_of_mem hitem)
  have hcount := lookup_inputCount hinputs hitem hmid hcov hlocation
  have hmem : .range bounds ∈ entry.current.inputs.items.map (·.cardinality) := by
    rw [← hcardinality]
    exact List.mem_map_of_mem hitem
  have htotal := hn.2 (List.any_eq_true.mpr ⟨item, hitem, by rw [hcardinality]; rfl⟩)
  have hbetween := (hn.1.2 bounds hmem).1
  have hsingletons := hn.1.singletons_le hmem
  obtain ⟨start', hstart'⟩ := entry.current.inputs.range_location hitem hcardinality
  rw [hlocation] at hstart'
  cases hstart'
  rw [List.length_map] at hbetween hsingletons
  have hpositions : item.location.positions n =
      List.range' start (n - (entry.current.inputs.items.length - 1)) := by
    rw [hlocation]
    rfl
  refine ⟨n, n - (entry.current.inputs.items.length - 1), hn, hpositions, by omega, ?_, hsub hcov⟩
  rw [hsub hcount, Option.some_inj, Value.int.injEq]
  omega

/-- a ranged output in a passing run -/
structure OutputRangeRun (entry : EntryModel) (ctx : ScriptContext) (env : Env)
    (item : EntryInteraction) (bounds : RangeBounds) (start count : Nat) : Prop where
  admits : Admits (entry.current.outputs.items.map (·.cardinality))
    (ctx.tx.authOutputs ctx.active).length
  positions : item.location.positions (ctx.tx.authOutputs ctx.active).length =
    List.range' start count
  minimum : bounds.minimum ≤ count
  named : env.lookup (hiddenOutputCountName item.handle) = some (.int count)

theorem outputRange_run (houtputs : currentOutputPrelude entry = .ok outputs)
    (hexec : execAll ctx (inputs ++ outputs) frame = some out)
    (hitem : item ∈ entry.current.outputs.items) (hcardinality : item.cardinality = .range bounds)
    (hlocation : item.location = .range start singletonCount) :
    ∃ count, OutputRangeRun entry ctx out.env item bounds start count := by
  obtain ⟨mid, -, hrest⟩ := execAll_append.mp hexec
  have hemitted := currentOutputPrelude_ok houtputs hrest
  have hn := admits_outputs hemitted
  have hmem : .range bounds ∈ entry.current.outputs.items.map (·.cardinality) := by
    rw [← hcardinality]
    exact List.mem_map_of_mem hitem
  have hsingletons := hn.singletons_le hmem
  obtain ⟨start', singletonCount', count, hlocation', hcount, ⟨hminimum, -⟩, hnamed⟩ :=
    hemitted.ranges item hitem bounds hcardinality
  rw [hlocation] at hlocation'
  cases hlocation'
  obtain ⟨start', hstart'⟩ := entry.current.outputs.range_location hitem hcardinality
  rw [hlocation] at hstart'
  cases hstart'
  rw [List.length_map] at hsingletons
  refine ⟨(ctx.tx.authOutputs ctx.active).length - (entry.current.outputs.items.length - 1), hn, ?_,
    by omega, ?_⟩
  · rw [hlocation]
    rfl
  · rw [hnamed, Option.some_inj, Value.int.injEq]
    omega

/-! ## accesses -/

theorem BoundTo.mem {locals : Nat → Option LocalId} {section_ : InteractionSection}
    (h : BoundTo body locals section_ span item) : item ∈ section_.items := by
  obtain ⟨index, id, hget, -, -⟩ := h
  exact List.mem_of_getElem? hget

theorem BodyRun.Follows.variable {left : CacheFrame} (hfollows : run.Follows left) {name : String}
    {value : Value} {seen : BodyValue} (hname : left.frame.env.lookup name = some value)
    (hvalue : run.variableValue name value = some seen) : run.names name = some seen :=
  hfollows name seen ((seen_lookup hname).trans hvalue)

variable {left : CacheFrame} {n first : Nat}

theorem InputRangeRun.counted
    (hrange : InputRangeRun entry ctx covenant left.frame.env item bounds start n count)
    (hfollows : run.Follows left) :
    CountedRange run ⟨first, hiddenInputCountName item.handle, bounds.minimum⟩ count :=
  ⟨hfollows.variable hrange.named rfl, hrange.minimum⟩

/-- the input at a position of a range stands for its item -/
theorem InputRangeRun.reads {j input : Nat} {env : Env}
    (hrange : InputRangeRun entry ctx covenant env item bounds start n count)
    (hitem : item ∈ entry.current.inputs.items) (hj : j < count)
    (hinput : (ctx.tx.covInputs covenant)[sectionOffset entry + start + j]? = some input) :
    ReadsInput entry ctx.tx covenant item input := by
  refine ⟨n, start + j, hrange.consumes, itemAt_of_mem hrange.consumes.1 hitem ?_, ?_⟩
  · rw [hrange.positions]
    exact List.mem_range'_1.mpr ⟨Nat.le_add_right _ _, by omega⟩
  · rwa [← Nat.add_assoc]

theorem eval_inputIndex {value : BodyValue}
    (hrange : InputRangeRun entry run.ctx covenant left.frame.env item bounds start n count)
    (hfollows : run.Follows left) (hitem : item ∈ entry.current.inputs.items)
    (hsafe : SafeIndex ⟨sectionOffset entry + start, hiddenInputCountName item.handle, bounds.minimum⟩
      lowered checked)
    (h : run.eval (.apply "OpCovInputIdx" [.generated hiddenCovIdName,
      rangePosition ⟨sectionOffset entry + start, hiddenInputCountName item.handle, bounds.minimum⟩
        checked]) = some value) :
    ∃ input, value = .scalar (.int (input : Nat)) ∧
      ReadsInput entry run.ctx.tx covenant item input ∧
      run.ctx.tx.inputCovenantId input = some covenant := by
  obtain ⟨covValue, position, hcov, hposition, hcall⟩ := eval_apply₂ h
  rw [eval_generated, hfollows.variable hrange.covId rfl] at hcov
  cases hcov
  obtain ⟨j, -, hj, rfl⟩ := eval_rangePosition hsafe (hrange.counted hfollows) hposition
  obtain ⟨input, hinput, rfl⟩ := runCall_opCovInputIdx hcall
  exact ⟨input, rfl, hrange.reads hitem hj hinput,
    Transaction.mem_covInputs.mp (List.mem_of_getElem? hinput)⟩

theorem eval_cacheItem {appended : String × Expr}
    (hrange : InputRangeRun entry run.ctx covenant left.frame.env item bounds start n count)
    (hfollows : run.Follows left)
    (hsafe : SafeIndex ⟨first, hiddenInputCountName item.handle, bounds.minimum⟩ lowered checked)
    (hfilled : Filled run covenant item.handle (sectionOffset entry + start) count left appended)
    (h : run.eval (.arrayIndex span (.generated appended.1) checked) = some v) :
    ∃ j, j < count ∧
      ReadsAt run covenant item.handle (sectionOffset entry + start + j) appended.2 v := by
  obtain ⟨items, i, hsource, hindex, hget⟩ := eval_arrayIndex h
  obtain ⟨items', hitems, -, hreads⟩ := hfilled.get
  rw [eval_generated, hfollows _ _ (seen_array hitems)] at hsource
  cases hsource
  obtain ⟨j, hj, hlt⟩ := hsafe.lt_count (hrange.counted hfollows) hindex
  cases hj
  obtain ⟨k, hk, hget⟩ := nth_eq_some.mp hget
  obtain rfl := Int.natCast_inj.mp hk
  exact ⟨j, hlt, hreads j v hget⟩

theorem item_mem_member {itemSpan handleSpan : Span} {handle field : String} :
    Expr.arrayIndex itemSpan (.identifier handleSpan handle) index ∈ (Expr.fieldAccess span
      (.arrayIndex itemSpan (.identifier handleSpan handle) index) field).nodes := by
  rw [Expr.nodes]
  exact List.mem_cons_of_mem _ (Expr.self_mem_nodes _)

theorem item_mem_state {nameSpan itemSpan handleSpan : Span} {handle : String} :
    Expr.arrayIndex itemSpan (.identifier handleSpan handle) index ∈ (Expr.call span "state" nameSpan
      [.arrayIndex itemSpan (.identifier handleSpan handle) index]).nodes := by
  rw [Expr.nodes]
  exact List.mem_cons_of_mem _ (mem_nodesAll.mpr ⟨_, List.mem_singleton_self _, Expr.self_mem_nodes _⟩)

theorem handle_mem_member {itemSpan handleSpan : Span} {handle field : String} :
    Expr.identifier handleSpan handle ∈ (Expr.fieldAccess span
      (.arrayIndex itemSpan (.identifier handleSpan handle) index) field).nodes := by
  simp only [Expr.nodes, List.mem_cons, List.mem_append, true_or, or_true]

theorem handle_mem_state {nameSpan itemSpan handleSpan : Span} {handle : String} :
    Expr.identifier handleSpan handle ∈ (Expr.call span "state" nameSpan
      [.arrayIndex itemSpan (.identifier handleSpan handle) index]).nodes := by
  simp only [Expr.nodes, nodesAll, List.mem_cons, List.mem_append, true_or, or_true]

end

/-! ## passing runs -/

section
variable {app : CompiledApp} {model : StateModel} {lowering : ContractStateLowering}
variable {printed : PhysicalTargetId → String} {body : BodyLowering} {actor : ActorModel}
variable {entry : EntryModel} {consumes emits : Nat → Option LocalId}
variable {references : List PlannedEntryInputReference} {exprs : List Expr}
variable {covenant : Bytes} {left : CacheFrame}

/-- a body that runs in a transaction that has passed the preludes of its entry -/
structure PassedRun (app : CompiledApp) (actor : ActorModel) (entry : EntryModel)
    (references : List PlannedEntryInputReference) (run : BodyRun) (covenant : Bytes) : Prop where
  covenant : run.ctx.tx.inputCovenantId run.ctx.active = some covenant
  passes : ∃ inputs outputs start left,
    cachedInputPrelude app.toApp app.plan actor entry references = .ok inputs ∧
    currentOutputPrelude entry = .ok outputs ∧
    execCaches run (inputs ++ outputs.map .check) start = some left ∧ run.Follows left

/-- what a passing run knows of a ranged input: its items, and the arrays that hold their states -/
structure RangeRun (entry : EntryModel) (run : BodyRun) (covenant : Bytes) (left : CacheFrame)
    (item : EntryInteraction) (bounds : RangeBounds) (start n count : Nat)
    (planned : PlannedEntryInputReference) : Prop where
  range : InputRangeRun entry run.ctx covenant left.frame.env item bounds start n count
  reads : ReadsFrom (hiddenConsumedInputStateName item.handle) planned
  filled : ∃ appends, planned.rangeCacheAppend item.handle = .ok appends ∧ ∀ appended ∈ appends,
    Filled run covenant item.handle (sectionOffset entry + start) count left appended

section
variable {bounds : RangeBounds} {start n : Nat} {item : EntryInteraction}
variable {planned : PlannedEntryInputReference} {span : Span}

theorem RangeRun.field {handleSpan itemSpan : Span} {first : Nat} {field : String} {value : Expr}
    (hrun : RangeRun entry run covenant left item bounds start n count planned)
    (hfollows : run.Follows left) (hitem : item ∈ entry.current.inputs.items)
    (hsafe : SafeIndex ⟨first, hiddenInputCountName item.handle, bounds.minimum⟩ lowered checked)
    (hfield : planned.rangeField item.handle checked field = some value)
    (h : run.eval value = some v) :
    ReadsItem body entry run covenant (.fieldAccess span
      (.arrayIndex itemSpan (.identifier handleSpan item.handle) index) field) v := by
  obtain ⟨appends, happends, hfilled⟩ := hrun.filled
  unfold PlannedEntryInputReference.rangeField at hfield
  obtain ⟨source, hsource, hfield⟩ := Option.bind_eq_some_iff.mp hfield
  have hmem := List.mem_of_find?_eq_some hsource
  obtain ⟨rfl, hvalue⟩ := of_decide_eq_true (List.find?_some
    (p := fun source : PlannedSourceField => decide (source.name = field ∧ source.astValue.isSome)) hsource)
  split_ifs at hfield with hcomplete
  · obtain ⟨item', hitem', happended⟩ := rangeCacheAppend_item hcomplete happends
    rw [← Option.some_inj.mp hfield, BodyRun.eval] at h
    obtain ⟨record, hrecord, h⟩ := Option.bind_eq_some_iff.mp h
    obtain ⟨j, hj, hread⟩ := eval_cacheItem hrun.range hfollows hsafe (hfilled _ happended) hrecord
    obtain ⟨input, spent, values, ⟨hinput, hspent⟩, rfl, hvalues⟩ := hread.item hrun.reads hitem'
    refine .inputField (hrun.range.reads hitem hj hinput) hspent ?_
    rw [← hvalues source hmem]
    exact h
  · obtain ⟨value', hvalue', happended⟩ := rangeCacheAppend_field hcomplete happends
      (List.mem_filter.mpr ⟨hmem, hvalue⟩)
    rw [← Option.some_inj.mp hfield] at h
    obtain ⟨j, hj, hread⟩ := eval_cacheItem hrun.range hfollows hsafe (hfilled _ happended) h
    dsimp only at hread
    rw [hrun.reads.fields source hmem value' hvalue'] at hread
    obtain ⟨input, spent, ⟨hinput, hspent⟩, hstate⟩ := hread.field
    exact .inputField (hrun.range.reads hitem hj hinput) hspent hstate

theorem RangeRun.state {nameSpan handleSpan itemSpan : Span} {first : Nat} {value : Expr}
    {reference : PlannedEntryInputReference}
    (hrun : RangeRun entry run covenant left item bounds start n count planned)
    (hfollows : run.Follows left) (hitem : item ∈ entry.current.inputs.items)
    (hreference : body.referenceUses handleSpan = some reference)
    (hplanned : planned = { reference with payloadDigest := none })
    (hsafe : SafeIndex ⟨first, hiddenInputCountName item.handle, bounds.minimum⟩ lowered checked)
    (hvalue : planned.completeRangeItem item.handle checked = some value)
    (h : run.eval value = some v) :
    ReadsItem body entry run covenant (.call span "state" nameSpan
      [.arrayIndex itemSpan (.identifier handleSpan item.handle) index]) v := by
  obtain ⟨appends, happends, hfilled⟩ := hrun.filled
  unfold PlannedEntryInputReference.completeRangeItem at hvalue
  split_ifs at hvalue with hcomplete
  obtain ⟨item', hitem', happended⟩ := rangeCacheAppend_item hcomplete happends
  rw [← Option.some_inj.mp hvalue] at h
  obtain ⟨j, hj, hread⟩ := eval_cacheItem hrun.range hfollows hsafe (hfilled _ happended) h
  obtain ⟨input, spent, values, ⟨hinput, hspent⟩, rfl, hvalues⟩ := hread.item hrun.reads hitem'
  refine .inputState (hrun.range.reads hitem hj hinput) hspent hreference fun field hfield => ?_
  refine hvalues field ?_
  rw [hplanned]
  exact hfield

end

/-- an access of a passing run that has a value reads an item of its handle -/
theorem rangeAccess_inside
    (hlowering : contractStateLowering model app.toApp app.plan actor = .ok lowering)
    (hreferences : planConsumedReferences model lowering printed actor entry = .ok references)
    (hbody : BodyOf body actor entry consumes emits references exprs)
    (hpassed : PassedRun app actor entry references run covenant)
    (haccess : RangeAccess body expr index lowered checked)
    (hnamed : ∀ span name, Expr.identifier span name ∈ expr.nodes → ∀ item,
      BoundTo body consumes entry.current.inputs span item ∨
        BoundTo body emits entry.current.outputs span item → name = item.handle)
    (h : run.eval checked = some v) : ReadsItem body entry run covenant expr v := by
  obtain ⟨hc, inputs, outputs, begun, left, hinputs, houtputs, hexec, hfollows⟩ := hpassed
  have hreads := planConsumedReferences_reads hlowering hreferences
  have hlength := hreads.length_eq.symm
  have herased := execCaches_erase hexec
  rw [List.flatMap_append, erase_checks] at herased
  have hcurrent := erase_cachedInputPrelude hlength hinputs
  -- the item of an input handle, in the run
  have hinput : ∀ {handleSpan : Span} {handle covenantId : String} {range : RangeValueLocation},
      Expr.identifier handleSpan handle ∈ expr.nodes →
      body.inputRange handleSpan = some (covenantId, range) → ∃ item bounds start n count,
        handle = item.handle ∧ item ∈ entry.current.inputs.items ∧
        InputRangeRun entry run.ctx covenant left.frame.env item bounds start n count ∧
        covenantId = hiddenCovIdName ∧
        range = ⟨sectionOffset entry + start, hiddenInputCountName item.handle, bounds.minimum⟩ ∧
        ∀ planned, body.referenceUses handleSpan = some planned →
          RangeRun entry run covenant left item bounds start n count
            { planned with payloadDigest := none } := by
    intro handleSpan handle covenantId range hnode hrange
    obtain ⟨item, bounds, start, singletonCount, hbound, hcardinality, hlocation, hcov, hrange⟩ :=
      inputRange_bound hbody.bindings hrange
    obtain ⟨n, count, hrun⟩ :=
      inputRange_run hcurrent houtputs hc herased hbound.mem hcardinality hlocation
    refine ⟨item, bounds, start, n, count, hnamed _ _ hnode item (.inl hbound), hbound.mem, hrun,
      hcov, hrange, fun planned hplanned => ?_⟩
    obtain ⟨position, id, hget, hid, hbinding⟩ := hbound
    have hreference := hbody.referenced position id handleSpan planned
      (List.getElem?_eq_some_iff.mp hget).1 hid hbinding hplanned
    obtain ⟨item', hget', hfrom⟩ := forall₂_getElem? hreads hreference
    rw [hget] at hget'
    cases hget'
    obtain ⟨appends, total, happends, htotal, hfilled⟩ := cachedInputPrelude_filled hlength hinputs
      hget hcardinality hlocation hreference hc hexec
    rw [hrun.named, Option.some_inj, Value.int.injEq] at htotal
    rw [← htotal, Int.toNat_natCast] at hfilled
    exact ⟨hrun, hfrom, appends, happends, hfilled⟩
  cases haccess with
  | @inputValue span itemSpan handleSpan handle covenantId range index lowered checked found safe =>
    obtain ⟨item, bounds, start, n, count, rfl, hitem, hrun, rfl, rfl, -⟩ :=
      hinput handle_mem_member found
    rw [BodyRun.eval] at h
    obtain ⟨value, hvalue, h⟩ := Option.bind_eq_some_iff.mp h
    obtain ⟨input, rfl, hreads, -⟩ := eval_inputIndex hrun hfollows hitem safe hvalue
    obtain ⟨i, hi, h⟩ := Option.bind_eq_some_iff.mp h
    cases hi
    obtain ⟨spent, -, h⟩ := Option.bind_eq_some_iff.mp h
    rw [← Option.some_inj.mp h, Int.toNat_natCast]
    exact .inputValue hreads
  | @inputCovenantId span itemSpan handleSpan handle covenantId range index lowered checked found safe =>
    obtain ⟨item, bounds, start, n, count, rfl, hitem, hrun, rfl, rfl, -⟩ :=
      hinput handle_mem_member found
    obtain ⟨value, hvalue, hcall⟩ := eval_apply₁ h
    obtain ⟨input, rfl, hreads, hcovenant⟩ := eval_inputIndex hrun hfollows hitem safe hvalue
    obtain ⟨covenant', hcovenant', rfl⟩ := runCall_opInputCovenantId hcall
    rw [hcovenant] at hcovenant'
    cases hcovenant'
    exact .inputCovenantId hreads
  | @inputField span itemSpan handleSpan handle covenantId field range index lowered checked value
      planned found reference safe cached =>
    obtain ⟨item, bounds, start, n, count, rfl, hitem, -, rfl, rfl, hrun⟩ :=
      hinput handle_mem_member found
    exact (hrun planned reference).field hfollows hitem safe cached h
  | @inputState span nameSpan itemSpan handleSpan handle covenantId range index lowered checked
      value planned found reference safe cached =>
    obtain ⟨item, bounds, start, n, count, rfl, hitem, -, rfl, rfl, hrun⟩ :=
      hinput handle_mem_state found
    exact (hrun planned reference).state hfollows hitem reference rfl safe cached h
  | @outputValue span itemSpan handleSpan handle range index lowered checked found safe =>
    obtain ⟨item, bounds, start, singletonCount, hbound, hcardinality, hlocation, rfl⟩ :=
      outputRange_bound hbody.bindings found
    obtain ⟨count, hrun⟩ := outputRange_run houtputs herased hbound.mem hcardinality hlocation
    obtain rfl := hnamed handleSpan handle
      handle_mem_member item (.inr hbound)
    have hcounted : CountedRange run ⟨start, hiddenOutputCountName item.handle, bounds.minimum⟩
        count := ⟨hfollows.variable hrun.named rfl, hrun.minimum⟩
    rw [BodyRun.eval] at h
    obtain ⟨value, hvalue, h⟩ := Option.bind_eq_some_iff.mp h
    obtain ⟨active, position, hactive, hposition, hcall⟩ := eval_apply₂ hvalue
    rw [BodyRun.eval] at hactive
    cases hactive
    obtain ⟨j, -, hj, rfl⟩ := eval_rangePosition safe hcounted hposition
    obtain ⟨output, houtput, rfl⟩ := runCall_opAuthOutputIdx hcall
    obtain ⟨i, hi, h⟩ := Option.bind_eq_some_iff.mp h
    cases hi
    obtain ⟨paid, hpaid, h⟩ := Option.bind_eq_some_iff.mp h
    obtain ⟨k, hk, hpaid⟩ := nth_eq_some.mp hpaid
    obtain rfl := Int.natCast_inj.mp hk
    rw [← Option.some_inj.mp h]
    refine .outputValue ⟨start + j, ?_, houtput⟩ hpaid
    refine itemAt_of_mem hrun.admits hbound.mem ?_
    rw [hrun.positions]
    exact List.mem_range'_1.mpr ⟨Nat.le_add_right _ _, by omega⟩

/-! ## accesses of an accepted body -/

/-- the handle that an access names -/
def Expr.accessed : Expr → Option String
  | .fieldAccess _ (.arrayIndex _ (.identifier _ handle) _) _ => some handle
  | .call _ "state" _ [.arrayIndex _ (.identifier _ handle) _] => some handle
  | _ => none

/-- A literal index of an access is a declared position of its range.  A range of outputs that is
always empty declares none: its literals go through the helper, and fail. -/
def DeclaredIndex (entry : EntryModel) (expr index : Expr) : Prop :=
  ∀ value, literalIndex index = some value → ∃ item bounds, expr.accessed = some item.handle ∧
    item.cardinality = .range bounds ∧
    (item ∈ entry.current.inputs.items ∧ 0 ≤ value ∧ value < bounds.maximum ∨
      item ∈ entry.current.outputs.items ∧
        (0 < bounds.maximum → 0 ≤ value ∧ value < bounds.maximum))

theorem rangeAccess_declared (hbody : BodyOf body actor entry consumes emits references exprs)
    {root : Expr} (hroot : root ∈ exprs) (hexpr : expr ∈ root.nodes)
    (haccess : RangeAccess body expr index lowered checked) : DeclaredIndex entry expr index := by
  have hnode : ∀ {node : Expr}, node ∈ expr.nodes → node ∈ root.nodes :=
    fun hmem => Expr.nodes_trans hmem root hexpr
  -- the item of an input handle: the planner of the inputs looks at every index of a range
  have hinput : ∀ {itemSpan handleSpan : Span} {handle covenantId : String}
      {range : RangeValueLocation}, expr.accessed = some handle →
      Expr.arrayIndex itemSpan (.identifier handleSpan handle) index ∈ expr.nodes →
      Expr.identifier handleSpan handle ∈ expr.nodes →
      body.inputRange handleSpan = some (covenantId, range) → DeclaredIndex entry expr index := by
    intro itemSpan handleSpan handle covenantId range haccessed hitem hhandle hrange value hvalue
    obtain ⟨item, bounds, start, singletonCount, hbound, hcardinality, -⟩ :=
      inputRange_bound hbody.bindings hrange
    obtain rfl := hbody.named root hroot _ _ (hnode hhandle) item (.inl hbound)
    exact ⟨item, bounds, haccessed, hcardinality, .inl ⟨hbound.mem,
      inputLiteral_declared hbody.consumed hbody.inputs root hroot _ _ _ _ (hnode hitem) item bounds
        value hbound hcardinality hvalue⟩⟩
  cases haccess with
  | inputValue found _ =>
    exact hinput rfl item_mem_member handle_mem_member found
  | inputCovenantId found _ =>
    exact hinput rfl item_mem_member handle_mem_member found
  | inputField found _ _ _ =>
    exact hinput rfl item_mem_member handle_mem_member found
  | inputState found _ _ _ =>
    exact hinput rfl item_mem_state handle_mem_state found
  | outputValue found _ =>
    intro value hvalue
    obtain ⟨item, bounds, start, singletonCount, hbound, hcardinality, -⟩ :=
      outputRange_bound hbody.bindings found
    obtain rfl := hbody.named root hroot _ _ (hnode handle_mem_member) item (.inr hbound)
    refine ⟨item, bounds, rfl, hcardinality, .inr ⟨hbound.mem, fun hpositive => ?_⟩⟩
    exact outputLiteral_declared hbody.emitted hbody.outputs root hroot _ _ _ _ _
      (hnode (Expr.self_mem_nodes _)) item bounds value hbound hcardinality hpositive hvalue

theorem RangeAccess.ranged (haccess : RangeAccess body expr index lowered checked)
    (hbindings : bodyBindings (sectionOffset entry) entry consumes emits = .ok body.bindings) :
    checkedRangeIndexRequired entry = true := by
  have hinput : ∀ {handleSpan : Span} {range : String × RangeValueLocation},
      body.inputRange handleSpan = some range → checkedRangeIndexRequired entry = true := by
    intro handleSpan range hfound
    obtain ⟨item, bounds, start, singletonCount, hbound, hcardinality, -⟩ :=
      inputRange_bound hbindings hfound
    refine List.any_eq_true.mpr ⟨item, List.mem_append_left _ hbound.mem, ?_⟩
    rw [hcardinality]
    rfl
  cases haccess with
  | inputValue found _ => exact hinput found
  | inputCovenantId found _ => exact hinput found
  | inputField found _ _ _ => exact hinput found
  | inputState found _ _ _ => exact hinput found
  | outputValue found _ =>
    obtain ⟨item, bounds, start, singletonCount, hbound, hcardinality, -⟩ :=
      outputRange_bound hbindings found
    refine List.any_eq_true.mpr ⟨item, List.mem_append_right _ hbound.mem, ?_⟩
    rw [hcardinality]
    rfl

/-- **Accesses to ranges are checked.**  A body that the planners accept and that is lowered without
errors has safe indexes at every depth: literals below the minimum of their range, or calls of the
helper, which the contract then has.  The literals that are written name declared positions.  In
every transaction that passes the entry, an access that has a value reads an item of its handle, at
a position that stands for no other item: from the transaction, or from the arrays that the preludes
have filled. -/
theorem rangeAccesses_checked {exprs' : List Expr} (hactor : entry ∈ actor.entries)
    (hlowering : contractStateLowering model app.toApp app.plan actor = .ok lowering)
    (hreferences : planConsumedReferences model lowering printed actor entry = .ok references)
    (hbody : BodyOf body actor entry consumes emits references exprs)
    (hlower : body.lowerBody exprs = .ok exprs') :
    List.Forall₂ (Lowers body) exprs exprs' ∧
      ∀ root ∈ exprs, ∀ expr ∈ root.nodes, ∀ index lowered checked,
        RangeAccess body expr index lowered checked →
          DeclaredIndex entry expr index ∧ hasCheckedRangeIndexHelper actor = true ∧
          ∀ (run : BodyRun) (covenant : Bytes) (v : BodyValue),
            PassedRun app actor entry references run covenant → run.eval checked = some v →
              ReadsItem body entry run covenant expr v := by
  refine ⟨lowerBody_lowers hbody.sited hlower, ?_⟩
  intro root hroot expr hexpr index lowered checked haccess
  refine ⟨rangeAccess_declared hbody hroot hexpr haccess,
    List.any_eq_true.mpr ⟨entry, hactor, haccess.ranged hbody.bindings⟩, ?_⟩
  intro run covenant v hpassed hv
  refine rangeAccess_inside hlowering hreferences hbody hpassed haccess ?_ hv
  intro span name hnode item hbound
  exact hbody.named root hroot span name (Expr.nodes_trans hnode root hexpr) item hbound

end

/-! ## a sample -/

/-- the bank stores its total, a clerk an amount and whether the desk is open -/
def queueStates : StateModel where
  stateSources := [⟨"Vault"⟩, ⟨"Desk"⟩]
  stateBySource source :=
    if source = ⟨"Vault"⟩ then .ok ⟨"Vault", [⟨.new "int", "total", false⟩], none⟩
    else if source = ⟨"Desk"⟩ then
      .ok ⟨"Desk", [⟨.new "int", "amount", false⟩, ⟨.new "bool", "open", false⟩], none⟩
    else .error "unknown state"
  listed source state h := by
    split_ifs at h with h₁ h₂
    · rw [h₁]; decide
    · rw [h₂]; decide
  asStr source := source.origin
  baseState source := source
  digestState _ _ _ := .error "no state is expanded"
  fieldState _ _ _ := .ok none
  linkedActors := []
  staticActorSourceState
    | .inApp name => if name = "Bank" then .ok ⟨"Vault"⟩ else .ok ⟨"Desk"⟩
    | .linked _ => .error "unknown actor"
  selectorSourceState _ := .error "unknown selector"
  dynamicSourceStates _ := .ok []

/-- the planned states of the bank, and its references to the clerks -/
def queuePlan : Except String (ContractStateLowering × List PlannedEntryInputReference) := do
  let lowering ← contractStateLowering queueStates compiledQueueApp.toApp compiledQueueApp.plan queueBank
  let references ← planConsumedReferences queueStates lowering (fun _ => "") queueBank queueEntry
  return (lowering, references)

def queuePlanned : ContractStateLowering × List PlannedEntryInputReference :=
  queuePlan.toOption.get (by decide +kernel)

def queueReferences : List PlannedEntryInputReference := queuePlanned.2

/-- the reference to the clerks between the first and the last one -/
def clerkReference : PlannedEntryInputReference := queueReferences[1]?.get (by decide +kernel)

theorem clerkReference_checked : clerkReference.payloadDigest.isNone = true ∧
    clerkReference.hasCompleteRangeCache = true ∧
    (clerkReference.fields.find? fun field =>
      field.name = "amount" ∧ field.astValue.isSome).isSome = true := by decide +kernel

theorem queueReferences_clerk :
    queueReferences[1]? = some { clerkReference with payloadDigest := none } := by
  have hsame : ∀ {planned : PlannedEntryInputReference}, planned.payloadDigest = none →
      { planned with payloadDigest := none } = planned := by
    intro planned hdigest
    cases planned
    cases hdigest
    rfl
  rw [hsame (Option.isNone_iff_eq_none.mp clerkReference_checked.1)]
  exact (Option.some_get _).symm

/-- a member of `others[index]` -/
def othersMember (start : Nat) (index : Expr) (field : String) : Expr :=
  .fieldAccess (start, start + 5) (.arrayIndex (start, start + 4)
    (.identifier (start, start + 1) "others") index) field

def next (start : Nat) : Expr := .identifier (start, start + 1) "next"

/-- `state(others[next])` -/
def nextState : Expr :=
  .call (30, 36) "state" (30, 31) [.arrayIndex (32, 35) (.identifier (32, 33) "others") (next 34)]

/-- `paid[0].value` -/
def firstPaid : Expr :=
  .fieldAccess (40, 45) (.arrayIndex (40, 44) (.identifier (40, 41) "paid") (.int (42, 43) 0)) "value"

/-- `others[0].value`, `others[next].amount`, `state(others[next])` and `paid[0].value` -/
def queueExprs : List Expr :=
  [othersMember 10 (.int (12, 13) 0) "value", othersMember 20 (next 22) "amount", nextState, firstPaid]

/-- where `others` stands -/
def othersSpans : List Span := [(10, 11), (20, 21), (32, 33)]

/-- the handle `others` is the second input, and `paid` the second output -/
def queueBody : BodyLowering where
  binding span :=
    if span ∈ othersSpans then some (.local 1) else if span = (40, 41) then some (.local 4) else none
  bindings := ⟨.ofList [(0, .singleton),
      (1, .range hiddenCovIdName ⟨2, hiddenInputCountName "others", 1⟩), (2, .singleton)],
    .ofList [(4, ⟨1, hiddenOutputCountName "paid", 1⟩)]⟩
  text _ := ""
  referenceUses span := if span ∈ othersSpans then some clerkReference else none
  active := clerkReference
  actorField _ := none
  valueUse _ := none
  stateParameter _ _ := false
  digestOperand _ := none
  digestHelperName state := state
  authoredStatePayloadDigest _ _ := none
  stateTypeSource _ := .ok none
  typeName name _ := name
  storageFields _ := .ok []
  expansionDigests _ := []
  observedOutputFields _ _ := []

/-- an identifier where a handle stands is the handle -/
def namesHandle : Expr → Bool
  | .identifier span name => decide ((span ∈ othersSpans → name = "others") ∧
      (span = (40, 41) → name = "paid"))
  | _ => true

theorem queueBody_lowered : (queueBody.lowerBody queueExprs).isOk = true := by decide +kernel

theorem queueBody_binding {span : Span} {id : LocalId} (h : queueBody.binding span = some (.local id)) :
    span ∈ othersSpans ∧ id = 1 ∨ span = (40, 41) ∧ id = 4 := by
  unfold queueBody at h
  dsimp only at h
  split_ifs at h with hothers hpaid
  · cases h
    exact .inl ⟨hothers, rfl⟩
  · cases h
    exact .inr ⟨hpaid, rfl⟩

theorem queueBody_of :
    BodyOf queueBody queueBank queueEntry some (fun index => some (index + 3)) queueReferences
      queueExprs where
  bindings := rfl
  consumed i j id hi hj := (Option.some_inj.mp hi).trans (Option.some_inj.mp hj).symm
  emitted i j id hi hj :=
    Nat.succ_injective.iterate 3 ((Option.some_inj.mp hi).trans (Option.some_inj.mp hj).symm)
  sited := by
    show ∀ expr ∈ queueExprs, ∀ node ∈ expr.nodes, (_ ∨ _ ∨ _) → _
    decide +kernel
  named := by
    have hnames : ∀ expr ∈ queueExprs, ∀ node ∈ expr.nodes, namesHandle node = true := by
      decide +kernel
    intro expr hexpr span name hnode item hbound
    obtain ⟨hothers, hpaid⟩ := of_decide_eq_true (hnames expr hexpr _ hnode)
    obtain ⟨index, id, hitem, hid, hbinding⟩ | ⟨index, id, hitem, hid, hbinding⟩ := hbound
    · cases hid
      obtain ⟨hspan, rfl⟩ | ⟨-, rfl⟩ := queueBody_binding hbinding
      · cases hitem
        exact hothers hspan
      · cases hitem
    · obtain ⟨-, rfl⟩ | ⟨hspan, rfl⟩ := queueBody_binding hbinding
      · exact absurd (Option.some_inj.mp hid) (Nat.succ_succ_ne_one (index + 1))
      · obtain rfl : index = 1 := Nat.succ_injective.iterate 3 (Option.some_inj.mp hid)
        cases hitem
        exact hpaid hspan
  referenced := by
    intro index id span planned hlt hid hbinding hplanned
    cases hid
    obtain ⟨hspan, rfl⟩ | ⟨-, rfl⟩ := queueBody_binding hbinding
    · unfold queueBody at hplanned
      dsimp only at hplanned
      rw [if_pos hspan] at hplanned
      cases hplanned
      exact queueReferences_clerk
    · exact absurd hlt (by decide)
  inputs := by decide +kernel
  outputs := by decide +kernel

/-- a byte of the state of a clerk is the amount -/
def readByte (_ : String) : Bytes → Option (List (String × BodyValue))
  | [amount] => some [("amount", .scalar (.int amount.toNat)), ("open", .scalar (.bool true))]
  | _ => none

/-- a payment with four clerks, who have written their amounts, into four outputs -/
def queueDeposits : Transaction where
  inputs := [⟨⟨[], 0⟩, some [7], [1], []⟩, ⟨⟨[], 1⟩, some [7], [2], [11]⟩,
    ⟨⟨[], 2⟩, some [7], [2], [12]⟩, ⟨⟨[], 3⟩, some [7], [2], [13]⟩, ⟨⟨[], 4⟩, some [7], [2], [14]⟩]
  outputs := [⟨1, 0, [], some ⟨0, [7]⟩⟩, ⟨2, 0, [], some ⟨0, [7]⟩⟩, ⟨3, 0, [], some ⟨0, [7]⟩⟩,
    ⟨4, 0, [], some ⟨0, [7]⟩⟩]

/-- the machine that runs the preludes and the body -/
def queueMachine : BodyRun where
  ctx := ⟨queueDeposits, 0, ⟨id⟩⟩
  names _ := none
  amount input := 10 * input
  decode := readByte
  call _ _ := none
  node _ _ := none

/-- the run of the body after the preludes, where `next` is 1 -/
def queueRun (left : CacheFrame) : BodyRun :=
  { queueMachine with
    names := fun name =>
      if name = "next" then some (.scalar (.int 1)) else queueMachine.seen left name }

theorem queueRun_follows {left : CacheFrame} (h : queueMachine.seen left "next" = none) :
    (queueRun left).Follows left := by
  intro name v hv
  show (if name = "next" then _ else queueMachine.seen left name) = some v
  rw [if_neg ?_]
  · exact hv
  · rintro rfl
    exact absurd (h.symm.trans hv) nofun

/-- `next` through the helper -/
def checkedNext (start : Nat) : Expr :=
  .apply hiddenCheckedRangeIndexName [next start, .generated (hiddenInputCountName "others")]

/-- an item of the array of the states of the clerks -/
def clerkItem (index : Expr) : Expr :=
  .arrayIndex defaultSpan (.generated (hiddenConsumedInputAuthoredCacheName "others")) index

theorem clerkReference_complete : clerkReference.hasCompleteRangeCache = true :=
  clerkReference_checked.2.1

theorem clerkReference_amount (index : Expr) : clerkReference.rangeField "others" index "amount" =
    some (.fieldAccess defaultSpan (clerkItem index) "amount") := by
  obtain ⟨field, hfield⟩ := Option.isSome_iff_exists.mp clerkReference_checked.2.2
  unfold PlannedEntryInputReference.rangeField
  rw [hfield]
  exact if_pos clerkReference_complete

/-- the lowered accesses -/
def queueLowered : List Expr :=
  [.inputValue defaultSpan (.apply "OpCovInputIdx" [.generated hiddenCovIdName,
      rangePosition ⟨2, hiddenInputCountName "others", 1⟩ (.int (12, 13) 0)]),
    .fieldAccess defaultSpan (clerkItem (checkedNext 22)) "amount",
    clerkItem (checkedNext 34),
    .outputValue defaultSpan (.apply "OpAuthOutputIdx" [.activeInputIndex defaultSpan,
      rangePosition ⟨1, hiddenOutputCountName "paid", 1⟩ (.int (42, 43) 0)])]

/-- the values of the accesses, and the amount in the state -/
def queueValues (left : CacheFrame) : Bool :=
  (queueMachine.seen left "next").isNone &&
    decide (queueLowered.map (fun expr => ((queueRun left).eval expr).bind BodyValue.int?) =
      [some 20, some 13, none, some 2]) &&
    decide (((queueRun left).eval (clerkItem (checkedNext 34))).bind
      (fun state => (state.field "amount").bind BodyValue.int?) = some 13)

/-- the preludes of the bank with the arrays of `others` -/
def queueStatements : Except String (List CacheStatement) := do
  let inputs ← cachedInputPrelude compiledQueueApp.toApp compiledQueueApp.plan queueBank queueEntry
    queueReferences
  let outputs ← currentOutputPrelude queueEntry
  return inputs ++ outputs.map .check

/-- the template is known, and there are no arrays yet -/
def queueStart : CacheFrame := ⟨knownTemplate "Teller", fun _ => none, fun _ _ => rfl⟩

theorem queue_runs : (queueStatements.toOption.bind fun statements =>
    execCaches queueMachine statements queueStart).any queueValues = true := by
  decide +kernel

theorem queue_passed : ∃ left, queueValues left = true ∧
    PassedRun compiledQueueApp queueBank queueEntry queueReferences (queueRun left) [7] := by
  obtain ⟨left, hleft, hvalues⟩ := (Option.any_eq_true _ _).mp queue_runs
  cases hemitted : queueStatements with
  | error _ =>
    rw [hemitted] at hleft
    cases hleft
  | ok statements =>
  rw [hemitted] at hleft
  have hexec : execCaches queueMachine statements queueStart = some left := hleft
  obtain ⟨inputs, hinputs, hemitted⟩ := bind_eq_ok.mp hemitted
  obtain ⟨outputs, houtputs, hemitted⟩ := bind_eq_ok.mp hemitted
  rw [← pure_eq_ok.mp hemitted] at hexec
  refine ⟨left, hvalues, rfl, inputs, outputs, queueStart, left, hinputs, houtputs, hexec, ?_⟩
  unfold queueValues at hvalues
  rw [Bool.and_eq_true, Bool.and_eq_true] at hvalues
  exact queueRun_follows (Option.isNone_iff_eq_none.mp hvalues.1.1)

theorem eval_of_int? {expr : Expr} {i : Int} (h : (run.eval expr).bind BodyValue.int? = some i) :
    run.eval expr = some (.scalar (.int i)) := by
  obtain ⟨v, hv, hi⟩ := Option.bind_eq_some_iff.mp h
  rw [hv, int?_eq_some hi]

/-- the first of the other clerks holds 20, the next one has 13 in its state, and is paid 2 -/
theorem rangeAccesses_checked_queue : ∃ (lowered : List Expr) (left : CacheFrame) (state : BodyValue),
    queueBody.lowerBody queueExprs = .ok lowered ∧
      List.Forall₂ (Lowers queueBody) queueExprs lowered ∧
      hasCheckedRangeIndexHelper queueBank = true ∧
      DeclaredIndex queueEntry (othersMember 10 (.int (12, 13) 0) "value") (.int (12, 13) 0) ∧
      ReadsItem queueBody queueEntry (queueRun left) [7] (othersMember 10 (.int (12, 13) 0) "value")
        (.scalar (.int 20)) ∧
      ReadsItem queueBody queueEntry (queueRun left) [7] (othersMember 20 (next 22) "amount")
        (.scalar (.int 13)) ∧
      ReadsItem queueBody queueEntry (queueRun left) [7] nextState state ∧
      (state.field "amount").bind BodyValue.int? = some 13 ∧
      ReadsItem queueBody queueEntry (queueRun left) [7] firstPaid (.scalar (.int 2)) := by
  obtain ⟨lowered, hlower⟩ := exists_ok_of_isOk queueBody_lowered
  obtain ⟨left, hvalues, hpassed⟩ := queue_passed
  unfold queueValues at hvalues
  rw [Bool.and_eq_true, Bool.and_eq_true] at hvalues
  obtain ⟨⟨-, hints⟩, hstate⟩ := hvalues
  obtain ⟨hfirst, hrest⟩ := List.cons.inj (of_decide_eq_true hints)
  obtain ⟨hamount, hrest⟩ := List.cons.inj hrest
  obtain ⟨-, hrest⟩ := List.cons.inj hrest
  obtain ⟨hpaid, -⟩ := List.cons.inj hrest
  obtain ⟨state, hstate, hfield⟩ := Option.bind_eq_some_iff.mp (of_decide_eq_true hstate)
  have hplan : queuePlan = .ok queuePlanned := eq_ok_get _
  obtain ⟨lowering, hlowering, hplan⟩ := bind_eq_ok.mp hplan
  obtain ⟨references, hreferences, hplan⟩ := bind_eq_ok.mp hplan
  have hqueue : references = queueReferences := congrArg Prod.snd (pure_eq_ok.mp hplan)
  rw [hqueue] at hreferences
  obtain ⟨hlowers, hchecked⟩ := rangeAccesses_checked (List.get_mem _ _) hlowering hreferences
    queueBody_of hlower
  have haccess := fun expr hexpr index lowered checked haccess =>
    hchecked expr hexpr expr (Expr.self_mem_nodes expr) index lowered checked haccess
  obtain ⟨hdeclared, hhelper, hvalue⟩ := haccess (othersMember 10 (.int (12, 13) 0) "value")
    (by simp [queueExprs]) (.int (12, 13) 0) (.int (12, 13) 0) _ (.inputValue rfl (.literal (by decide)))
  obtain ⟨-, -, hitem⟩ := haccess (othersMember 20 (next 22) "amount") (by simp [queueExprs]) _ _ _
    (.inputField rfl rfl .checked (clerkReference_amount _))
  obtain ⟨-, -, hwhole⟩ := haccess nextState (by simp [queueExprs]) _ _ _
    (.inputState rfl rfl .checked (if_pos clerkReference_complete))
  obtain ⟨-, -, houtput⟩ := haccess firstPaid (by simp [queueExprs])
    (.int (42, 43) 0) (.int (42, 43) 0) _ (.outputValue rfl (.literal (by decide)))
  exact ⟨lowered, left, state, hlower, hlowers, hhelper, hdeclared,
    hvalue _ _ _ hpassed (eval_of_int? hfirst), hitem _ _ _ hpassed (eval_of_int? hamount),
    hwhole _ _ _ hpassed hstate, hfield, houtput _ _ _ hpassed (eval_of_int? hpaid)⟩

end Argent.Codegen
