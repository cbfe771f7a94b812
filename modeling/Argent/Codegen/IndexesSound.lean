import Argent.Codegen.GroupClosed
import Argent.Codegen.Indexes

/-!
# The index of an item is its position

* `indexes_currentInputPrelude`      the inputs that a prelude looks up, in clause order;
* `values_inputIndex`          the index of a consumed item is its position after the leader;
* `values_outputIndex`         the index of an emitted item is its position;
* `fixedInteractionIndex_isSome`      the artifact fixes the items that no range precedes;
* `clause_positions`           **plan, preludes and artifact agree on the positions of a clause**.
-/

set_option linter.unusedSectionVars false

namespace Argent.Codegen
open Argent.Model Argent.Sil Argent.Fallible

variable {ctx : ScriptContext} {frame out : Frame} {covenant : Bytes} {env : Env}
variable {interaction : EntryInteraction}

/-! ## what the preludes look up -/

theorem groupIndexes_append (look : Builtin) (first second : List SilStatement) :
    groupIndexes look (first ++ second) = groupIndexes look first ++ groupIndexes look second :=
  List.flatMap_append

theorem groupIndexes_flatten {α : Type} {look : Builtin} {index : α → List GroupIndex} {l : List α}
    {parts : List (List SilStatement)}
    (h : List.Forall₂ (fun a part => groupIndexes look part = index a) l parts) :
    groupIndexes look parts.flatten = l.flatMap index := by
  induction h with
  | nil => rfl
  | cons hpart _ ih => rw [List.flatten_cons, groupIndexes_append, hpart, ih, List.flatMap_cons]

theorem lookedUp_countWithout {look : Builtin} {count : SilExpr} (h : lookedUp look count = none)
    (excluded : Nat) : lookedUp look (countWithout count excluded) = none := by
  unfold countWithout
  split_ifs
  · exact h
  · rfl

theorem indexes_consumedInput {slotOffset : Nat} {proof : InputTemplateProof}
    {statements : List SilStatement}
    (h : consumedInput slotOffset interaction proof = .ok statements) :
    groupIndexes .opCovInputIdx statements = [inputIndex slotOffset interaction] := by
  unfold consumedInput at h
  unfold inputIndex
  cases hcardinality : interaction.cardinality with
  | one =>
    cases hlocation : interaction.location with
    | range start singletonCount =>
      rw [hcardinality, hlocation] at h
      cases h
    | fromStart index =>
      rw [hcardinality, hlocation] at h
      rw [← Except.ok.inj h]
      rfl
    | fromEnd distance =>
      rw [hcardinality, hlocation] at h
      rw [← Except.ok.inj h]
      rfl
  | range bounds =>
    cases hlocation : interaction.location with
    | fromStart index =>
      rw [hcardinality, hlocation] at h
      cases h
    | fromEnd distance =>
      rw [hcardinality, hlocation] at h
      cases h
    | range start singletonCount =>
      rw [hcardinality, hlocation] at h
      rw [← Except.ok.inj h]
      have hcount : lookedUp .opCovInputIdx (countWithout (covInputCount hiddenCovIdName)
          (slotOffset + singletonCount)) = none := lookedUp_countWithout rfl _
      show ((lookedUp .opCovInputIdx _).map GroupIndex.once).toList ++ _ = _
      rw [hcount]
      rfl

theorem indexes_groupPolicyChecks (policy : CurrentInputGroupPolicy) :
    groupIndexes .opCovInputIdx (groupPolicyChecks policy) = [] := by
  cases policy with
  | batchable => rfl
  | leaderRanged => rfl
  | leaderFixed count =>
    show groupIndexes .opCovInputIdx (if 1 < count then _ else []) = []
    split_ifs
    · rfl
    · rfl
  | delegate minimumCount => rfl

theorem indexes_optionalDelegateGuard (inputs : EntryInputPlan) :
    groupIndexes .opCovInputIdx (optionalDelegateGuard inputs) = [] := by
  unfold optionalDelegateGuard
  split_ifs
  · rfl
  · rfl

section
variable {app : App} {plan : CompilerRoutePlan} {actor : ActorModel} {entry : EntryModel}
  {prelude : List SilStatement}

/-- only a leader comes before the inputs that an entry consumes -/
theorem slotOffset_currentGroupPolicy :
    (currentGroupPolicy app actor entry).slotOffset = sectionOffset entry := by
  have hbatch : ∀ kind, entry.kind = kind → kind = .delegate →
      allowsCovenantBatching app actor entry = false := by
    intro kind hkind hdelegate
    unfold allowsCovenantBatching
    rw [hkind, hdelegate]
    rfl
  unfold currentGroupPolicy sectionOffset
  dsimp only
  cases hkind : entry.kind with
  | leader =>
    rw [if_pos rfl]
    dsimp only
    split_ifs
    · rfl
    · rfl
    · rfl
  | delegate =>
    rw [hbatch _ hkind rfl, if_neg Bool.false_ne_true]
    rfl

theorem items_of_batchable (hbatch : currentGroupPolicy app actor entry = .batchable) :
    entry.current.inputs.items = [] := by
  unfold currentGroupPolicy at hbatch
  dsimp only at hbatch
  by_cases hallowed : allowsCovenantBatching app actor entry = true
  · unfold allowsCovenantBatching at hallowed
    rw [Bool.and_eq_true, Bool.and_eq_true] at hallowed
    exact List.isEmpty_iff.mp hallowed.1.2
  · rw [if_neg hallowed] at hbatch
    cases hkind : entry.kind with
    | leader =>
      rw [hkind] at hbatch
      dsimp only at hbatch
      split_ifs at hbatch
    | delegate =>
      rw [hkind] at hbatch
      cases hbatch

theorem not_batchable_of_mem (hitem : interaction ∈ entry.current.inputs.items) :
    currentGroupPolicy app actor entry ≠ .batchable := by
  intro hbatch
  rw [items_of_batchable hbatch] at hitem
  exact absurd hitem List.not_mem_nil

/-- the inputs that an entry looks up, in clause order -/
theorem indexes_currentInputPrelude (hlow : currentInputPrelude app plan actor entry = .ok prelude) :
    groupIndexes .opCovInputIdx prelude =
      entry.current.inputs.items.map (inputIndex (sectionOffset entry)) := by
  obtain ⟨inputs, hinputs, hlow⟩ := bind_eq_ok.mp hlow
  obtain ⟨witnesses, -, hlow⟩ := bind_eq_ok.mp hlow
  obtain ⟨checks, hchecks, hlow⟩ := bind_eq_ok.mp hlow
  obtain ⟨hpolicy, -, hconsumed⟩ := entryInputPlan_ok hinputs
  have hitems : inputs.consumed.map Prod.fst = entry.current.inputs.items := by
    rw [← List.map_id entry.current.inputs.items]
    refine map_of_mapM_ok hconsumed fun interaction input hinput => ?_
    obtain ⟨reference, -, hpair⟩ := bind_eq_ok.mp hinput
    rw [← pure_eq_ok.mp hpair]
    rfl
  rw [← pure_eq_ok.mp hlow, groupIndexes_append, indexes_optionalDelegateGuard, List.append_nil]
  unfold consumedGroupChecks at hchecks
  dsimp only at hchecks
  rw [hpolicy] at hchecks
  by_cases hbatch : currentGroupPolicy app actor entry = .batchable
  · rw [if_pos hbatch] at hchecks
    rw [← Except.ok.inj hchecks, items_of_batchable hbatch]
    rfl
  · rw [if_neg hbatch, slotOffset_currentGroupPolicy] at hchecks
    obtain ⟨reads, hreads, hchecks⟩ := bind_eq_ok.mp hchecks
    have hparts : List.Forall₂ (fun input part => groupIndexes .opCovInputIdx part =
        [inputIndex (sectionOffset entry) input.1]) inputs.consumed reads := by
      refine forall₂_of_mapM hreads fun input _ part hpart => ?_
      obtain ⟨proof, -, hread⟩ := bind_eq_ok.mp hpart
      exact indexes_consumedInput hread
    rw [← pure_eq_ok.mp hchecks, List.cons_append, ← List.singleton_append, groupIndexes_append,
      groupIndexes_append, indexes_groupPolicyChecks, groupIndexes_flatten hparts, ← hitems,
      List.map_map, List.map_eq_flatMap]
    rfl

theorem indexes_currentOutputPrelude (hlow : currentOutputPrelude entry = .ok prelude) :
    groupIndexes .opAuthOutputIdx prelude =
      (entry.current.outputs.items.filter fun item => !item.cardinality.isRange).map
        outputIndex := by
  have hone : ∀ item part, outputLocation item = .ok part → groupIndexes .opAuthOutputIdx part =
      if item.cardinality.isRange then [] else [outputIndex item] := by
    intro item part h
    unfold outputLocation at h
    unfold outputIndex
    cases hcardinality : item.cardinality with
    | one =>
      cases hlocation : item.location with
      | range start singletonCount =>
        rw [hcardinality, hlocation] at h
        cases h
      | fromStart index =>
        rw [hcardinality, hlocation] at h
        rw [← Except.ok.inj h]
        rfl
      | fromEnd distance =>
        rw [hcardinality, hlocation] at h
        rw [← Except.ok.inj h]
        rfl
    | range bounds =>
      cases hlocation : item.location with
      | fromStart index =>
        rw [hcardinality, hlocation] at h
        cases h
      | fromEnd distance =>
        rw [hcardinality, hlocation] at h
        cases h
      | range start singletonCount =>
        rw [hcardinality, hlocation] at h
        rw [← Except.ok.inj h]
        have hcount : lookedUp .opAuthOutputIdx (countWithout authOutputCount singletonCount) = none :=
          lookedUp_countWithout rfl _
        show ((lookedUp .opAuthOutputIdx _).map GroupIndex.once).toList ++ _ = _
        rw [hcount]
        rfl
  obtain ⟨locations, hlocations, hlow⟩ := bind_eq_ok.mp hlow
  have hparts := forall₂_of_mapM hlocations fun item _ part hpart => hone item part hpart
  have hflatten : groupIndexes .opAuthOutputIdx locations.flatten =
      (entry.current.outputs.items.filter fun item => !item.cardinality.isRange).map
        outputIndex := by
    rw [groupIndexes_flatten hparts, List.map_eq_flatMap]
    induction entry.current.outputs.items with
    | nil => rfl
    | cons item items ih =>
      rw [List.flatMap_cons, ih, List.filter_cons]
      cases item.cardinality.isRange with
      | true => rfl
      | false => rfl
  have hcoordination : groupIndexes .opAuthOutputIdx (if coordinatesCurrentOutputs entry then
      [comparison .eq (.call .opCovOutputCount [.identifier hiddenCovIdName]) authOutputCount]
    else []) = [] := by
    split_ifs
    · rfl
    · rfl
  rw [← pure_eq_ok.mp hlow, groupIndexes_append, groupIndexes_append, hflatten, hcoordination,
    List.append_nil]
  cases exactCurrentOutputCount entry with
  | none => rfl
  | some count => rfl

/-! ## the values of an index -/

theorem values_once {index : SilExpr} {k : Int} (h : index.eval ctx env = some (.int k)) :
    (GroupIndex.once index).values ctx env = some [k] := by
  show (index.eval ctx env).bind _ = _
  rw [h]
  rfl

theorem mapM_eq_some {α β : Type} {f : α → Option β} {g : α → β} {l : List α}
    (h : ∀ a ∈ l, f a = some (g a)) : l.mapM f = some (l.map g) := by
  induction l with
  | nil => rfl
  | cons a l ih =>
    rw [List.mapM_cons, h a List.mem_cons_self, ih fun b hb => h b (List.mem_cons_of_mem _ hb)]
    rfl

/-- a loop visits the positions from its first one -/
theorem values_each {position count : String} {n first : Nat}
    (h : env.lookup count = some (.int n)) :
    (GroupIndex.each position (.identifier count) (positionFrom first position)).values ctx env =
      some ((List.range' first n).map Int.ofNat) := by
  show ((SilExpr.identifier count).eval ctx env).bind _ = _
  rw [eval_identifier, h]
  show (List.range n).mapM _ = _
  rw [List.range'_eq_map_range, List.map_map]
  refine mapM_eq_some fun k _ => ?_
  have hlookup : ((position, Value.int k) :: env).lookup position = some (.int k) :=
    List.lookup_cons_self
  show ((positionFrom first position).eval ctx _).bind _ = _
  rw [eval_positionFrom hlookup]
  rfl

theorem eval_distance {count : SilExpr} {total distance k : Nat}
    (h : count.eval ctx env = some (.int total)) (hk : k + distance = total) :
    (SilExpr.binary .sub count (number distance)).eval ctx env = some (.int k) := by
  refine eval_binary.mpr ⟨_, _, h, eval_number, ?_⟩
  show some (Value.int (total - distance)) = _
  rw [← hk]
  push_cast
  rw [Int.add_sub_cancel]

/-- the index of a consumed item is its position after the leader -/
theorem values_inputIndex {section_ : InteractionSection} (hitem : interaction ∈ section_.items)
    (hcov : env.lookup hiddenCovIdName = some (.bytes covenant)) {slotOffset n : Nat}
    (hn : Admits (section_.items.map (·.cardinality)) n)
    (hsize : section_.items.any (·.cardinality.isRange) = true →
      (ctx.tx.covInputs covenant).length = slotOffset + n)
    (hcount : ∀ start singletonCount, interaction.location = .range start singletonCount →
      env.lookup (hiddenInputCountName interaction.handle) =
        some (.int ((ctx.tx.covInputs covenant).length - (slotOffset + singletonCount : Nat)))) :
    (inputIndex slotOffset interaction).values ctx env =
      some ((interaction.location.positions n).map
        fun position => ((slotOffset + position : Nat) : Int)) := by
  have hany : ∀ {bounds}, .range bounds ∈ section_.items.map (·.cardinality) →
      (ctx.tx.covInputs covenant).length = slotOffset + n ∧ section_.items.length - 1 ≤ n := by
    intro bounds hmem
    refine ⟨hsize ?_, ?_⟩
    · obtain ⟨item, hitem, hbounds⟩ := List.mem_map.mp hmem
      refine List.any_eq_true.mpr ⟨item, hitem, ?_⟩
      rw [hbounds]
      rfl
    · have hle := hn.singletons_le hmem
      rwa [List.length_map] at hle
  unfold inputIndex
  obtain ⟨_, index, hlocation⟩ | ⟨bounds, start, hcardinality, hlocation⟩ |
    ⟨_, bounds, distance, hmem, hlocation, hdistance⟩ := section_.location_cases hitem
  · rw [hlocation]
    exact values_once eval_number
  · have hlookup := hcount _ _ hlocation
    have hmem : .range bounds ∈ section_.items.map (·.cardinality) := by
      rw [← hcardinality]
      exact List.mem_map_of_mem hitem
    obtain ⟨htotal, hle⟩ := hany hmem
    rw [hlocation]
    have hvalue : ((ctx.tx.covInputs covenant).length : Int) -
        (slotOffset + (section_.items.length - 1) : Nat) =
          ((n - (section_.items.length - 1) : Nat) : Int) := by omega
    rw [hvalue] at hlookup
    rw [values_each hlookup]
    show some ((List.range' (slotOffset + start) _).map Int.ofNat) = some ((List.range' start _).map _)
    rw [← List.map_add_range', List.map_map]
    rfl
  · obtain ⟨htotal, hle⟩ := hany hmem
    rw [hlocation]
    refine values_once (eval_distance (eval_covInputCount hcov) ?_)
    omega

theorem values_outputIndex {section_ : InteractionSection} (hitem : interaction ∈ section_.items)
    (hn : Admits (section_.items.map (·.cardinality)) (ctx.tx.authOutputs ctx.active).length)
    (hcount : ∀ start singletonCount, interaction.location = .range start singletonCount →
      env.lookup (hiddenOutputCountName interaction.handle) =
        some (.int ((ctx.tx.authOutputs ctx.active).length - singletonCount))) :
    (outputIndex interaction).values ctx env =
      some ((interaction.location.positions (ctx.tx.authOutputs ctx.active).length).map Int.ofNat) := by
  have hle : ∀ {bounds}, .range bounds ∈ section_.items.map (·.cardinality) →
      section_.items.length - 1 ≤ (ctx.tx.authOutputs ctx.active).length := by
    intro bounds hmem
    have hle := hn.singletons_le hmem
    rwa [List.length_map] at hle
  unfold outputIndex
  obtain ⟨_, index, hlocation⟩ | ⟨bounds, start, hcardinality, hlocation⟩ |
    ⟨_, bounds, distance, hmem, hlocation, hdistance⟩ := section_.location_cases hitem
  · rw [hlocation]
    exact values_once eval_number
  · have hlookup := hcount _ _ hlocation
    have hmem : .range bounds ∈ section_.items.map (·.cardinality) := by
      rw [← hcardinality]
      exact List.mem_map_of_mem hitem
    have hsingles := hle hmem
    rw [hlocation]
    have hvalue : ((ctx.tx.authOutputs ctx.active).length : Int) -
        ((section_.items.length - 1 : Nat) : Int) =
          (((ctx.tx.authOutputs ctx.active).length - (section_.items.length - 1) : Nat) : Int) := by
      omega
    rw [hvalue] at hlookup
    rw [values_each hlookup]
    rfl
  · have hsingles := hle hmem
    rw [hlocation]
    refine values_once (eval_distance eval_authOutputCount ?_)
    omega

/-! ## the counts of a run -/

theorem lookup_of_countWithout {name : String} {excluded : Nat} {v : Value}
    (h : (countWithout (covInputCount name) excluded).eval ctx env = some v) :
    ∃ value, env.lookup name = some value := by
  have hcount : ∃ value, (covInputCount name).eval ctx env = some value := by
    unfold countWithout at h
    split_ifs at h
    · exact ⟨v, h⟩
    · obtain ⟨v₁, v₂, hv₁, -, -⟩ := eval_binary.mp h
      exact ⟨v₁, hv₁⟩
  obtain ⟨value, hvalue⟩ := hcount
  obtain ⟨v₁, hv₁, -⟩ := eval_call₁.mp hvalue
  rw [eval_identifier] at hv₁
  exact ⟨v₁, hv₁⟩

theorem consumedInput_mem (hlow : currentInputPrelude app plan actor entry = .ok prelude)
    (hitem : interaction ∈ entry.current.inputs.items) : ∃ proof part,
      consumedInput (sectionOffset entry) interaction proof = .ok part ∧
        ∀ statement ∈ part, statement ∈ prelude := by
  obtain ⟨inputs, hinputs, hlow⟩ := bind_eq_ok.mp hlow
  obtain ⟨witnesses, -, hlow⟩ := bind_eq_ok.mp hlow
  obtain ⟨checks, hchecks, hlow⟩ := bind_eq_ok.mp hlow
  obtain ⟨hpolicy, -, hconsumed⟩ := entryInputPlan_ok hinputs
  unfold consumedGroupChecks at hchecks
  dsimp only at hchecks
  rw [hpolicy, if_neg (not_batchable_of_mem hitem), slotOffset_currentGroupPolicy] at hchecks
  obtain ⟨reads, hreads, hchecks⟩ := bind_eq_ok.mp hchecks
  obtain ⟨input, hinput, hreference⟩ := mapM_ok_of_mem hconsumed hitem
  obtain ⟨reference, -, hpair⟩ := bind_eq_ok.mp hreference
  rw [← pure_eq_ok.mp hpair] at hinput
  obtain ⟨part, hpart, hread⟩ := mapM_ok_of_mem hreads hinput
  obtain ⟨proof, -, hread⟩ := bind_eq_ok.mp hread
  refine ⟨proof, part, hread, fun statement hstatement => ?_⟩
  rw [← pure_eq_ok.mp hlow, ← pure_eq_ok.mp hchecks]
  exact List.mem_append_left _ (List.mem_append_right _ (List.mem_flatten_of_mem hpart hstatement))

/-- the count of a consumed range is that of its group without the leader and the singletons -/
theorem lookup_inputCount (hlow : currentInputPrelude app plan actor entry = .ok prelude)
    (hitem : interaction ∈ entry.current.inputs.items)
    (hexec : execAll ctx prelude frame = some out)
    (hcov : out.env.lookup hiddenCovIdName = some (.bytes covenant)) {start singletonCount : Nat}
    (hlocation : interaction.location = .range start singletonCount) :
    out.env.lookup (hiddenInputCountName interaction.handle) = some
      (.int ((ctx.tx.covInputs covenant).length - (sectionOffset entry + singletonCount : Nat))) := by
  obtain ⟨proof, part, hpart, hmem⟩ := consumedInput_mem hlow hitem
  have hdefined : SilStatement.define (hiddenInputCountName interaction.handle)
      (countWithout (covInputCount hiddenCovIdName) (sectionOffset entry + singletonCount)) ∈
        part := by
    unfold consumedInput at hpart
    rw [hlocation] at hpart
    cases hcardinality : interaction.cardinality with
    | one =>
      rw [hcardinality] at hpart
      cases hpart
    | range bounds =>
      rw [hcardinality] at hpart
      rw [← Except.ok.inj hpart]
      exact List.mem_cons_self
  obtain ⟨before, after, _, hdefine, hafter⟩ := execAll_mem hexec (hmem _ hdefined)
  obtain ⟨v, hv, hnew, hout⟩ := exec_define.mp hdefine
  have hsub : before.env.Sub out.env := by
    refine Env.Sub.trans ?_ hafter.names
    rw [hout]
    exact Env.Sub.define hnew
  obtain ⟨value, hvalue⟩ := lookup_of_countWithout hv
  have heq := hsub hvalue
  rw [hcov, Option.some_inj] at heq
  rw [← heq] at hvalue
  rw [eval_countWithout (eval_covInputCount hvalue), Option.some_inj] at hv
  refine hafter.names ?_
  rw [hout, List.lookup_cons_self, ← hv]

/-! ## admitted groups -/

/-- `n` items of a covenant's group of `group` inputs stand for the consumes of an entry -/
def Consumes (entry : EntryModel) (group n : Nat) : Prop :=
  Admits (entry.current.inputs.items.map (·.cardinality)) n ∧
    (entry.current.inputs.items.any (·.cardinality.isRange) = true →
      group = sectionOffset entry + n)

theorem any_isRange_of_ones {items : List EntryInteraction}
    (h : ∀ cardinality ∈ items.map (·.cardinality), cardinality = .one) :
    items.any (·.cardinality.isRange) = false := by
  refine List.any_eq_false.mpr fun item hitem => ?_
  rw [h _ (List.mem_map_of_mem hitem)]
  exact Bool.false_ne_true

theorem exists_consumes {witnesses : List TemplateWitnessSpec} {env' : Env}
    (hc : ctx.tx.inputCovenantId ctx.active = some covenant)
    (h : InputsChecked app witnesses actor entry ctx covenant env env') :
    ∃ n, Consumes entry (ctx.tx.covInputs covenant).length n := by
  have hactive : 1 ≤ (ctx.tx.covInputs covenant).length :=
    List.length_pos_of_mem (Transaction.mem_covInputs.mpr hc)
  have hslot := (slotOffset_le (currentGroupPolicy app actor entry)).trans hactive
  rw [slotOffset_currentGroupPolicy] at hslot
  by_cases hany : entry.current.inputs.items.any (·.cardinality.isRange) = true
  · refine ⟨(ctx.tx.covInputs covenant).length - sectionOffset entry, ⟨fun hones => ?_,
      fun bounds hbounds => ?_⟩, fun _ => by omega⟩
    · rw [any_isRange_of_ones hones] at hany
      exact absurd hany Bool.false_ne_true
    · obtain ⟨item, hitem, hcardinality⟩ := List.mem_map.mp hbounds
      obtain ⟨start, hlocation⟩ := entry.current.inputs.range_location hitem hcardinality
      obtain ⟨_, _, _, _, _, hchecked⟩ := h.consumed (not_batchable_of_mem hitem) item hitem
      have hchecked := hchecked bounds start _ hcardinality hlocation
      rw [slotOffset_currentGroupPolicy] at hchecked
      rw [List.length_map]
      omega
  · refine ⟨entry.current.inputs.items.length, ⟨fun _ => (List.length_map _).symm,
      fun bounds hbounds => ?_⟩, fun h => absurd h hany⟩
    obtain ⟨item, hitem, hcardinality⟩ := List.mem_map.mp hbounds
    refine absurd (List.any_eq_true.mpr ⟨item, hitem, ?_⟩) hany
    rw [hcardinality]
    rfl

theorem admits_outputs (h : OutputsChecked entry ctx env) :
    Admits (entry.current.outputs.items.map (·.cardinality))
      (ctx.tx.authOutputs ctx.active).length := by
  refine ⟨fun hones => ?_, fun bounds hbounds => ?_⟩
  · rw [List.length_map]
    refine h.exact_ _ ?_
    unfold exactCurrentOutputCount
    dsimp only
    rw [any_isRange_of_ones hones]
    rfl
  · obtain ⟨item, hitem, hcardinality⟩ := List.mem_map.mp hbounds
    obtain ⟨start, hlocation⟩ := entry.current.outputs.range_location hitem hcardinality
    obtain ⟨_, _, n, hlocation', hn, hbetween, _⟩ := h.ranges item hitem bounds hcardinality
    rw [hlocation] at hlocation'
    cases hlocation'
    rw [List.length_map]
    omega

/-! ## the indexes of the artifact -/

theorem fixedInteractionIndex_isSome {location : InteractionLocation} {offset : Nat} :
    (fixedInteractionIndex location offset).isSome = true ↔ ∃ index, location = .fromStart index := by
  cases location with
  | fromStart index => exact ⟨fun _ => ⟨index, rfl⟩, fun _ => rfl⟩
  | range start singletonCount =>
    refine ⟨fun h => absurd h Bool.false_ne_true, ?_⟩
    rintro ⟨index, hindex⟩
    cases hindex
  | fromEnd distance =>
    refine ⟨fun h => absurd h Bool.false_ne_true, ?_⟩
    rintro ⟨index, hindex⟩
    cases hindex

theorem inputIndex_of_fixed {offset k : Nat}
    (h : fixedInteractionIndex interaction.location offset = some k) :
    inputIndex offset interaction = .once (number k) := by
  unfold inputIndex
  cases hlocation : interaction.location with
  | fromStart index =>
    rw [hlocation] at h
    rw [← Option.some_inj.mp h]
  | range start singletonCount =>
    rw [hlocation] at h
    cases h
  | fromEnd distance =>
    rw [hlocation] at h
    cases h

theorem outputIndex_of_fixed {k : Nat}
    (h : fixedInteractionIndex interaction.location 0 = some k) :
    outputIndex interaction = .once (number k) := by
  unfold outputIndex
  cases hlocation : interaction.location with
  | fromStart index =>
    rw [hlocation] at h
    have hindex := Option.some_inj.mp h
    rw [Nat.zero_add] at hindex
    rw [hindex]
  | range start singletonCount =>
    rw [hlocation] at h
    cases h
  | fromEnd distance =>
    rw [hlocation] at h
    cases h

/-! ## plan, preludes and artifact -/

/-- the indexes that the emitted statements look at are those of the items, in clause order -/
structure IndexesEmitted (entry : EntryModel) (inputs outputs : List SilStatement) : Prop where
  consumes : groupIndexes .opCovInputIdx inputs =
    entry.current.inputs.items.map (inputIndex (sectionOffset entry))
  singletons : groupIndexes .opAuthOutputIdx outputs =
    (entry.current.outputs.items.filter fun item => !item.cardinality.isRange).map outputIndex
  /-- the outputs of a range are looked up where they are validated -/
  ranged : ∀ output ∈ entry.current.outputs.items, ∀ bounds start singletonCount,
    output.location = .range start singletonCount → ∀ validate, ∃ position count index,
      outputIndex output = .each position count index ∧
      rangedOutputValidation output.handle bounds start validate =
        .loop position (.int 0) count (.int bounds.maximum)
          (validate (.call .opAuthOutputIdx [.activeInputIndex, index]))

/-- the indexes of a passing run are the planned positions: those of the inputs come after the
leader, and those of the outputs are among the outputs that the active input authorizes -/
structure IndexesPositioned (entry : EntryModel) (ctx : ScriptContext) (covenant : Bytes)
    (env : Env) : Prop where
  /-- a passing group is admitted -/
  consumes : ∃ n, Consumes entry (ctx.tx.covInputs covenant).length n
  inputs : ∀ n, Consumes entry (ctx.tx.covInputs covenant).length n →
    (entry.current.inputs.items.flatMap fun item => item.location.positions n) = List.range n ∧
    ∀ item ∈ entry.current.inputs.items, (inputIndex (sectionOffset entry) item).values ctx env =
      some ((item.location.positions n).map fun position =>
        ((sectionOffset entry + position : Nat) : Int))
  emits : Admits (entry.current.outputs.items.map (·.cardinality))
    (ctx.tx.authOutputs ctx.active).length
  outputs : (entry.current.outputs.items.flatMap fun item =>
      item.location.positions (ctx.tx.authOutputs ctx.active).length) =
        List.range (ctx.tx.authOutputs ctx.active).length ∧
    ∀ item ∈ entry.current.outputs.items, (outputIndex item).values ctx env =
      some ((item.location.positions (ctx.tx.authOutputs ctx.active).length).map Int.ofNat)

/-- the artifact fixes the indexes that no range precedes, as they are emitted -/
structure IndexesFixed (entry : EntryModel) : Prop where
  consumes : ∀ (j : Nat) item, entry.current.inputs.items[j]? = some item → ∃ input : RouteInputArtifact,
    (entryRoutePlanArtifact entry).consumes[j]? = some input ∧ input.name = item.handle ∧
    (input.covIndex.isSome = true ↔
      ∀ i ≤ j, ∀ other, entry.current.inputs.items[i]? = some other → other.cardinality = .one) ∧
    ∀ k, input.covIndex = some k → inputIndex (sectionOffset entry) item = .once (number k)
  outputs : ∀ (j : Nat) item, entry.current.outputs.items[j]? = some item →
    ∃ output : RouteOutputHandleArtifact,
    (entryRoutePlanArtifact entry).outputs[j]? = some output ∧ output.name = item.handle ∧
    (output.authIndex.isSome = true ↔
      ∀ i ≤ j, ∀ other, entry.current.outputs.items[i]? = some other → other.cardinality = .one) ∧
    ∀ k, output.authIndex = some k → outputIndex item = .once (number k)

theorem indexesEmitted {inputs outputs : List SilStatement}
    (hinputs : currentInputPrelude app plan actor entry = .ok inputs)
    (houtputs : currentOutputPrelude entry = .ok outputs) : IndexesEmitted entry inputs outputs where
  consumes := indexes_currentInputPrelude hinputs
  singletons := indexes_currentOutputPrelude houtputs
  ranged := by
    intro output _ bounds start singletonCount hlocation validate
    unfold outputIndex
    rw [hlocation]
    exact ⟨_, _, _, rfl, rfl⟩

theorem section_cover (section_ : InteractionSection) {n : Nat}
    (hn : Admits (section_.items.map (·.cardinality)) n) :
    (section_.items.flatMap fun item => item.location.positions n) = List.range n := by
  have hcover := interactionLocations_cover section_.planned (n := n) (by
    rw [List.map_map]
    exact hn)
  rwa [List.flatMap_map] at hcover

theorem indexesPositioned {inputs outputs : List SilStatement}
    (hinputs : currentInputPrelude app plan actor entry = .ok inputs)
    (houtputs : currentOutputPrelude entry = .ok outputs)
    (hc : ctx.tx.inputCovenantId ctx.active = some covenant)
    (h : execAll ctx (inputs ++ outputs) frame = some out) :
    IndexesPositioned entry ctx covenant out.env := by
  obtain ⟨mid, hmid, hrest⟩ := execAll_append.mp h
  obtain ⟨witnesses, -, hchecked⟩ := currentInputPrelude_ok hinputs hc hmid
  have hemitted := currentOutputPrelude_ok houtputs hrest
  have hsub := (execAll_extends hrest).names
  refine ⟨exists_consumes hc hchecked, fun n hn => ⟨section_cover _ hn.1, fun item hitem => ?_⟩,
    admits_outputs hemitted, section_cover _ (admits_outputs hemitted), fun item hitem => ?_⟩
  · have hcov := hchecked.covId (not_batchable_of_mem hitem)
    refine values_inputIndex hitem (hsub hcov) hn.1 hn.2 fun start singletonCount hlocation => ?_
    exact hsub (lookup_inputCount hinputs hitem hmid hcov hlocation)
  · refine values_outputIndex hitem (admits_outputs hemitted) fun start singletonCount hlocation => ?_
    obtain ⟨bounds, hcardinality⟩ : ∃ bounds, item.cardinality = .range bounds := by
      obtain ⟨_, _, hother⟩ | ⟨bounds, _, hrange, _⟩ | ⟨_, _, _, _, hother, _⟩ :=
        entry.current.outputs.location_cases hitem
      · rw [hlocation] at hother
        cases hother
      · exact ⟨bounds, hrange⟩
      · rw [hlocation] at hother
        cases hother
    obtain ⟨_, _, count, hlocation', hcount, _, hlookup⟩ :=
      hemitted.ranges item hitem bounds hcardinality
    rw [hlocation] at hlocation'
    cases hlocation'
    rw [hlookup, hcount]

theorem indexesFixed (entry : EntryModel) : IndexesFixed entry where
  consumes := by
    intro j item hitem
    refine ⟨routeInput entry item, ?_, rfl, ?_, fun k hk => inputIndex_of_fixed hk⟩
    · show (entry.current.inputs.items.map (routeInput entry))[j]? = _
      rw [List.getElem?_map, hitem, Option.map_some]
    · rw [← InteractionSection.fromStart_iff hitem]
      exact fixedInteractionIndex_isSome
  outputs := by
    intro j item hitem
    refine ⟨routeOutput item, ?_, rfl, ?_, fun k hk => outputIndex_of_fixed hk⟩
    · show (entry.current.outputs.items.map routeOutput)[j]? = _
      rw [List.getElem?_map, hitem, Option.map_some]
    · rw [← InteractionSection.fromStart_iff hitem]
      exact fixedInteractionIndex_isSome

/-- **The planned locations partition a clause; the indexes that the preludes look at are these
positions in every passing run; the artifact fixes exactly those that no range precedes.** -/
theorem clause_positions :
    (∀ actorName entryName section_ (items : List (String × ResolvedCardinality)),
      (items.filter fun item => item.2.isRange).length ≤ 1 → ∃ locations,
        planInteractionLocations actorName entryName section_ items = .ok locations ∧
        ∀ n, Admits (items.map Prod.snd) n →
          locations.flatMap (InteractionLocation.positions n) = List.range n) ∧
    (∀ app plan actor entry inputs outputs,
      currentInputPrelude app plan actor entry = .ok inputs →
      currentOutputPrelude entry = .ok outputs →
      IndexesEmitted entry inputs outputs ∧
      ∀ ctx frame out covenant, ctx.tx.inputCovenantId ctx.active = some covenant →
        execAll ctx (inputs ++ outputs) frame = some out →
        IndexesPositioned entry ctx covenant out.env) ∧
    ∀ entry, IndexesFixed entry := by
  refine ⟨?_, ?_, indexesFixed⟩
  · intro actorName entryName section_ items hrange
    obtain ⟨locations, hplan, hlocations⟩ :=
      exists_planInteractionLocations hrange actorName entryName section_
    exact ⟨locations, hplan, fun n hn => interactionLocations_cover hlocations hn⟩
  · intro app plan actor entry inputs outputs hinputs houtputs
    exact ⟨indexesEmitted hinputs houtputs, fun ctx frame out covenant hc h =>
      indexesPositioned hinputs houtputs hc h⟩

end

/-! ## a sample -/

/-- a bank that pays together with a first clerk, one or two others and a last one, into as many
outputs -/
def queueBank : ActorModel where
  name := "Bank"
  state := "Vault"
  entries := [{
    name := "payQueue"
    kind := .leader
    current := {
      covenant := .current
      inputs := ⟨[⟨"first", .static [.inApp "Teller"], .one, .fromStart 0⟩,
        ⟨"others", .static [.inApp "Teller"],
          .range ⟨1, 2, by decide, by decide, by decide⟩, .range 1 2⟩,
        ⟨"last", .static [.inApp "Teller"], .one, .fromEnd 1⟩], rfl⟩
      outputs := ⟨[⟨"rest", .static [.inApp "Bank"], .one, .fromStart 0⟩,
        ⟨"paid", .static [.inApp "Teller"],
          .range ⟨1, 2, by decide, by decide, by decide⟩, .range 1 2⟩,
        ⟨"fee", .static [.inApp "Bank"], .one, .fromEnd 1⟩], rfl⟩ }
    foreign := []
    templateSelectors := []
    body := [.become [⟨0, "rest", .exactSelf⟩, ⟨1, "paid", .constructed (.fixed "Teller") .many ⟨0⟩⟩,
      ⟨2, "fee", .exactSelf⟩]]
    analysis := _
    analyzed := rfl
    delegateEmits := nofun }]

def queueEntry : EntryModel := queueBank.entries.get ⟨0, Nat.one_pos⟩

def queueApp : App where
  name := "Bank"
  actors := [queueBank, teller]
  distinct := by decide
  identifiers := by decide +kernel

theorem queueApp_planned : (inferDirectRoutes queueApp).isOk = true := by decide +kernel

theorem queueApp_suffixes : validateGeneratedActorSuffixes queueApp = .ok () := by decide +kernel

theorem queueApp_validated : ∀ actor ∈ queueApp.actors, ∀ entry ∈ actor.entries,
    validateEntry queueApp actor entry = .ok () := by decide +kernel

def compiledQueueApp : CompiledApp :=
  queueApp.compiled queueApp_planned queueApp_suffixes queueApp_validated

/-- a payment with four clerks, into four outputs -/
def queuePayment : Transaction where
  inputs := [⟨⟨[], 0⟩, some [7], [1], []⟩, ⟨⟨[], 1⟩, some [7], [2], []⟩,
    ⟨⟨[], 2⟩, some [7], [2], []⟩, ⟨⟨[], 3⟩, some [7], [2], []⟩, ⟨⟨[], 4⟩, some [7], [2], []⟩]
  outputs := [⟨0, 0, [], some ⟨0, [7]⟩⟩, ⟨0, 0, [], some ⟨0, [7]⟩⟩, ⟨0, 0, [], some ⟨0, [7]⟩⟩,
    ⟨0, 0, [], some ⟨0, [7]⟩⟩]

theorem queue_passes : ∃ inputs outputs finish,
    currentInputPrelude queueApp compiledQueueApp.plan queueBank queueEntry = .ok inputs ∧
      currentOutputPrelude queueEntry = .ok outputs ∧
      execAll ⟨queuePayment, 0, ⟨id⟩⟩ (inputs ++ outputs) (knownTemplate "Teller") = some finish := by
  obtain ⟨finish, statements, hchecks, hexec⟩ := @exists_run
    (currentGroupChecks queueApp compiledQueueApp.plan queueBank queueEntry)
    ⟨queuePayment, 0, ⟨id⟩⟩ (knownTemplate "Teller") (by decide +kernel)
  obtain ⟨inputs, hinputs, hchecks⟩ := bind_eq_ok.mp hchecks
  obtain ⟨outputs, houtputs, hchecks⟩ := bind_eq_ok.mp hchecks
  rw [← pure_eq_ok.mp hchecks] at hexec
  exact ⟨inputs, outputs, finish, hinputs, houtputs, hexec⟩

theorem queue_admits : Admits (queueEntry.current.inputs.items.map (·.cardinality)) 4 := by
  refine ⟨by decide, fun bounds hbounds => ?_⟩
  have hmem : ResolvedCardinality.range bounds ∈
    [.one, .range ⟨1, 2, by decide, by decide, by decide⟩, .one] := hbounds
  rw [List.mem_cons, List.mem_cons, List.mem_singleton] at hmem
  obtain hfirst | hothers | hlast := hmem
  · cases hfirst
  · rw [ResolvedCardinality.range.inj hothers]
    decide
  · cases hlast

/-- the first clerk, the other two and the last one stand at the positions after the bank, and the
artifact fixes the first -/
theorem clause_positions_queue :
    (∃ locations, planInteractionLocations "Bank" "payQueue" "consumes"
        (queueEntry.current.inputs.items.map fun item => (item.handle, item.cardinality)) =
          .ok locations ∧
      locations.flatMap (InteractionLocation.positions 4) = [0, 1, 2, 3]) ∧
    (∃ inputs outputs, currentInputPrelude queueApp compiledQueueApp.plan queueBank queueEntry =
        .ok inputs ∧ currentOutputPrelude queueEntry = .ok outputs ∧
      IndexesEmitted queueEntry inputs outputs ∧ ∃ finish : Frame,
        queueEntry.current.inputs.items.map (fun item =>
          (inputIndex (sectionOffset queueEntry) item).values ⟨queuePayment, 0, ⟨id⟩⟩ finish.env) =
            [some [1], some [2, 3], some [4]]) ∧
    IndexesFixed queueEntry := by
  obtain ⟨hplan, hrun, hfixed⟩ := clause_positions
  refine ⟨?_, ?_, hfixed _⟩
  · obtain ⟨locations, hlocations, hcover⟩ := hplan "Bank" "payQueue" "consumes"
      (queueEntry.current.inputs.items.map fun item => (item.handle, item.cardinality)) (by decide)
    exact ⟨locations, hlocations, hcover 4 queue_admits⟩
  · obtain ⟨inputs, outputs, finish, hinputs, houtputs, hexec⟩ := queue_passes
    obtain ⟨hemitted, hpositioned⟩ := hrun _ _ _ _ _ _ hinputs houtputs
    have hrange := (hpositioned _ _ _ [7] (by decide) hexec).inputs 4 ⟨queue_admits, by decide⟩
    refine ⟨inputs, outputs, hinputs, houtputs, hemitted, finish, ?_⟩
    rw [List.map_congr_left hrange.2]
    decide

end Argent.Codegen
