import Argent.Codegen.RangeAccess

/-!
# Accesses are lowered to safe indexes

* `SafeIndex`              a literal below the least count, or an index that the helper checks;
* `RangeAccess`            an access to an item of a ranged handle, and what it is lowered to;
* `Lowers`                 every access in an expression, at any depth, is lowered to a safe index;
* `lowerBody_lowers`       **the lowering of a body without errors is safe**.
-/

set_option linter.unusedSectionVars false

namespace Argent.Codegen
open Argent.Model Argent.Sil Argent.Fallible

/-! ## what is lowered -/

/-- the lowered form of an index -/
inductive SafeIndex (range : RangeValueLocation) : Expr → Expr → Prop
  | literal {span : Span} {value : Nat} (below : (value : Int) < range.minimum) :
    SafeIndex range (.int span value) (.int span value)
  | checked {index : Expr} : SafeIndex range index
      (.apply hiddenCheckedRangeIndexName [index, .generated range.count])

theorem checkedRangeIndex_safe (index : Expr) (range : RangeValueLocation) :
    SafeIndex range index (checkedRangeIndex index range) := by
  unfold checkedRangeIndex
  split
  next span value =>
    split
    next h => exact .literal h
    next => exact .checked
  next => exact .checked

section
variable (body : BodyLowering)

/-- an access to an item of a ranged handle: the node, its index, the lowered index and the lowered
node -/
inductive RangeAccess : Expr → Expr → Expr → Expr → Prop
  | inputValue {span itemSpan handleSpan : Span} {handle covenantId : String}
    {range : RangeValueLocation} {index lowered checked : Expr}
    (found : body.inputRange handleSpan = some (covenantId, range))
    (safe : SafeIndex range lowered checked) :
    RangeAccess
      (.fieldAccess span (.arrayIndex itemSpan (.identifier handleSpan handle) index) "value")
      index lowered
      (.inputValue defaultSpan
        (.apply "OpCovInputIdx" [.generated covenantId, rangePosition range checked]))
  | inputCovenantId {span itemSpan handleSpan : Span} {handle covenantId : String}
    {range : RangeValueLocation} {index lowered checked : Expr}
    (found : body.inputRange handleSpan = some (covenantId, range))
    (safe : SafeIndex range lowered checked) :
    RangeAccess
      (.fieldAccess span (.arrayIndex itemSpan (.identifier handleSpan handle) index) "cov_id")
      index lowered
      (.apply "OpInputCovenantId"
        [.apply "OpCovInputIdx" [.generated covenantId, rangePosition range checked]])
  | inputField {span itemSpan handleSpan : Span} {handle covenantId field : String}
    {range : RangeValueLocation} {index lowered checked value : Expr}
    {planned : PlannedEntryInputReference}
    (found : body.inputRange handleSpan = some (covenantId, range))
    (reference : body.referenceUses handleSpan = some planned)
    (safe : SafeIndex range lowered checked)
    (cached : planned.rangeField handle checked field = some value) :
    RangeAccess
      (.fieldAccess span (.arrayIndex itemSpan (.identifier handleSpan handle) index) field)
      index lowered value
  | inputState {span nameSpan itemSpan handleSpan : Span} {handle covenantId : String}
    {range : RangeValueLocation} {index lowered checked value : Expr}
    {planned : PlannedEntryInputReference}
    (found : body.inputRange handleSpan = some (covenantId, range))
    (reference : body.referenceUses handleSpan = some planned)
    (safe : SafeIndex range lowered checked)
    (cached : planned.completeRangeItem handle checked = some value) :
    RangeAccess
      (.call span "state" nameSpan [.arrayIndex itemSpan (.identifier handleSpan handle) index])
      index lowered value
  | outputValue {span itemSpan handleSpan : Span} {handle : String} {range : RangeValueLocation}
    {index lowered checked : Expr} (found : body.outputRange handleSpan = some range)
    (safe : SafeIndex range lowered checked) :
    RangeAccess
      (.fieldAccess span (.arrayIndex itemSpan (.identifier handleSpan handle) index) "value")
      index lowered
      (.outputValue defaultSpan
        (.apply "OpAuthOutputIdx" [.activeInputIndex defaultSpan, rangePosition range checked]))

/-- an indexed handle of a range where it stands for an item: a member of an input item, the value of
an output item, or an input item on its own -/
def BodyLowering.IsAccess : Expr → Prop
  | .fieldAccess _ (.arrayIndex _ (.identifier span _) _) field =>
    (body.inputRange span).isSome = true ∨ (body.outputRange span).isSome = true ∧ field = "value"
  | .arrayIndex _ (.identifier span _) _ => (body.inputRange span).isSome = true
  | _ => False

/-- Every access in a node is lowered to a safe index. -/
inductive Lowers : Expr → Expr → Prop
  | access {expr index lowered expr' : Expr} (index_ : Lowers index lowered)
    (access : RangeAccess body expr index lowered expr') : Lowers expr expr'
  /-- a node without an access, by what a plan knows of it -/
  | planned {expr expr' : Expr} (free : ∀ node ∈ expr.nodes, ¬ body.IsAccess node) :
    Lowers expr expr'
  /-- the digest of a variable -/
  | digestVariable {span nameSpan nameSpan' : Span} {value expr' : Expr} {name : String}
    (value_ : Lowers value (.identifier nameSpan' name)) :
    Lowers (.call span "digest" nameSpan [value]) expr'
  /-- a digest through a generated helper -/
  | digest {span nameSpan : Span} {value value' : Expr} {helper : String}
    (value_ : Lowers value value') :
    Lowers (.call span "digest" nameSpan [value]) (.apply helper [value'])
  | identifier {span : Span} {name : String} :
    Lowers (.identifier span name) (.identifier span name)
  | int {span : Span} {value : Nat} : Lowers (.int span value) (.int span value)
  | activeInputIndex {span : Span} : Lowers (.activeInputIndex span) (.activeInputIndex span)
  | neg {span : Span} {expr expr' : Expr} (expr_ : Lowers expr expr') :
    Lowers (.neg span expr) (.neg span expr')
  | add {span : Span} {left left' right right' : Expr} (left_ : Lowers left left')
    (right_ : Lowers right right') : Lowers (.add span left right) (.add span left' right')
  | call {span nameSpan : Span} {name : String} {args args' : List Expr}
    (args_ : List.Forall₂ Lowers args args') :
    Lowers (.call span name nameSpan args) (.call span name nameSpan args')
  | fieldAccess {span : Span} {source source' : Expr} {field : String}
    (other : ¬ body.IsAccess (.fieldAccess span source field)) (source_ : Lowers source source') :
    Lowers (.fieldAccess span source field) (.fieldAccess span source' field)
  | arrayIndex {span : Span} {source source' index index' : Expr}
    (other : ¬ body.IsAccess (.arrayIndex span source index)) (source_ : Lowers source source')
    (index_ : Lowers index index') :
    Lowers (.arrayIndex span source index) (.arrayIndex span source' index')
  | length {span : Span} {source source' : Expr} (source_ : Lowers source source') :
    Lowers (.length span source) (.length span source')
  | inputValue {span : Span} {index index' : Expr} (index_ : Lowers index index') :
    Lowers (.inputValue span index) (.inputValue span index')
  | outputValue {span : Span} {index index' : Expr} (index_ : Lowers index index') :
    Lowers (.outputValue span index) (.outputValue span index')
  | node {span : Span} {kind : String} {exprs exprs' : List Expr}
    (exprs_ : List.Forall₂ Lowers exprs exprs') :
    Lowers (.node span kind exprs) (.node span kind exprs')
  /-- a literal, in storage order and with the virtual slots that it leaves out -/
  | structLiteral {span nameSpan : Span} {name : String} {fields lowered slots fields' : List (String × Expr)}
    (names : fields.map Prod.fst = lowered.map Prod.fst)
    (exprs_ : List.Forall₂ Lowers (fields.map Prod.snd) (lowered.map Prod.snd))
    (arranged : fields'.Perm (lowered ++ slots)) :
    Lowers (.structLiteral span name nameSpan fields) (.structLiteral span name nameSpan fields')

/-! ## sites -/

/-- the spans at which the planners record a path -/
def BodyLowering.Recorded (span : Span) : Prop :=
  (body.referenceUses span).isSome = true ∨ (body.actorField span).isSome = true ∨
    (body.valueUse span).isSome = true

/-- the planners record paths: the parser gives every node its own span -/
def BodyLowering.Sited (expr : Expr) : Prop :=
  ∀ node ∈ expr.nodes, body.Recorded node.span → node.isPath = true

end

variable {body : BodyLowering}

theorem fieldAccess_path_free {span : Span} {source : Expr} {field : String}
    (h : source.isPath = true) : ¬ body.IsAccess (.fieldAccess span source field) := by
  cases source with
  | identifier span name => exact id
  | fieldAccess span source field => exact id
  | _ => cases h

/-- no node of a path is an access -/
theorem isPath_free {expr : Expr} (h : expr.isPath = true) :
    ∀ node ∈ expr.nodes, ¬ body.IsAccess node := by
  intro node hnode
  cases expr with
  | identifier span name =>
    rw [Expr.nodes] at hnode
    rw [List.mem_singleton.mp hnode]
    exact id
  | fieldAccess span source field =>
    rw [Expr.nodes] at hnode
    obtain rfl | hnode := List.mem_cons.mp hnode
    · exact fieldAccess_path_free h
    · have hsource : source.isPath = true := h
      exact isPath_free hsource node hnode
  | _ => cases h

theorem Expr.self_mem_nodes (expr : Expr) : expr ∈ expr.nodes := by
  cases expr
  all_goals
    rw [Expr.nodes]
    exact List.mem_cons_self

theorem mem_nodesAll {node : Expr} {exprs : List Expr} :
    node ∈ nodesAll exprs ↔ ∃ expr ∈ exprs, node ∈ expr.nodes := by
  induction exprs with
  | nil =>
    rw [nodesAll]
    exact ⟨nofun, fun ⟨_, h, _⟩ => nomatch h⟩
  | cons expr exprs ih =>
    rw [nodesAll, List.mem_append, ih, List.exists_mem_cons_iff]

theorem mem_nodesFields {node : Expr} {fields : List (String × Expr)} :
    node ∈ nodesFields fields ↔ ∃ field ∈ fields, node ∈ field.2.nodes := by
  induction fields with
  | nil =>
    rw [nodesFields]
    exact ⟨nofun, fun ⟨_, h, _⟩ => nomatch h⟩
  | cons field fields ih =>
    rw [nodesFields, List.mem_append, ih, List.exists_mem_cons_iff]

theorem Expr.nodes_trans_of {expr e node : Expr} {rest : List Expr} (hnodes : expr.nodes = expr :: rest)
    (hrest : e ∈ rest → node ∈ rest) (hnode : node ∈ e.nodes) (he : e ∈ expr.nodes) :
    node ∈ expr.nodes := by
  rw [hnodes] at he
  obtain rfl | he := List.mem_cons.mp he
  · exact hnode
  · rw [hnodes]
    exact List.mem_cons_of_mem _ (hrest he)

theorem Expr.nodes_trans_leaf {expr e node : Expr} (hnodes : expr.nodes = [expr])
    (hnode : node ∈ e.nodes) (he : e ∈ expr.nodes) : node ∈ expr.nodes := by
  rw [hnodes] at he
  rwa [List.mem_singleton.mp he] at hnode

mutual

theorem Expr.nodes_trans {e node : Expr} (hnode : node ∈ e.nodes) :
    ∀ expr : Expr, e ∈ expr.nodes → node ∈ expr.nodes
  | .int _ _ => Expr.nodes_trans_leaf (by rw [Expr.nodes]) hnode
  | .identifier _ _ => Expr.nodes_trans_leaf (by rw [Expr.nodes]) hnode
  | .activeInputIndex _ => Expr.nodes_trans_leaf (by rw [Expr.nodes]) hnode
  | .neg _ expr => Expr.nodes_trans_of (by rw [Expr.nodes]) (Expr.nodes_trans hnode expr) hnode
  | .add _ left right => Expr.nodes_trans_of (by rw [Expr.nodes])
    (fun he => List.mem_append.mpr ((List.mem_append.mp he).imp (Expr.nodes_trans hnode left)
      (Expr.nodes_trans hnode right))) hnode
  | .call _ _ _ args => Expr.nodes_trans_of (by rw [Expr.nodes]) (nodesAll_trans hnode args) hnode
  | .fieldAccess _ source _ =>
    Expr.nodes_trans_of (by rw [Expr.nodes]) (Expr.nodes_trans hnode source) hnode
  | .arrayIndex _ source index => Expr.nodes_trans_of (by rw [Expr.nodes])
    (fun he => List.mem_append.mpr ((List.mem_append.mp he).imp (Expr.nodes_trans hnode source)
      (Expr.nodes_trans hnode index))) hnode
  | .length _ source =>
    Expr.nodes_trans_of (by rw [Expr.nodes]) (Expr.nodes_trans hnode source) hnode
  | .structLiteral _ _ _ fields =>
    Expr.nodes_trans_of (by rw [Expr.nodes]) (nodesFields_trans hnode fields) hnode
  | .inputValue _ index =>
    Expr.nodes_trans_of (by rw [Expr.nodes]) (Expr.nodes_trans hnode index) hnode
  | .outputValue _ index =>
    Expr.nodes_trans_of (by rw [Expr.nodes]) (Expr.nodes_trans hnode index) hnode
  | .node _ _ exprs => Expr.nodes_trans_of (by rw [Expr.nodes]) (nodesAll_trans hnode exprs) hnode

theorem nodesAll_trans {e node : Expr} (hnode : node ∈ e.nodes) :
    ∀ exprs : List Expr, e ∈ nodesAll exprs → node ∈ nodesAll exprs
  | [], he => by
    rw [nodesAll] at he
    cases he
  | expr :: exprs, he => by
    rw [nodesAll] at he ⊢
    exact List.mem_append.mpr ((List.mem_append.mp he).imp (Expr.nodes_trans hnode expr)
      (nodesAll_trans hnode exprs))

theorem nodesFields_trans {e node : Expr} (hnode : node ∈ e.nodes) :
    ∀ fields : List (String × Expr), e ∈ nodesFields fields → node ∈ nodesFields fields
  | [], he => by
    rw [nodesFields] at he
    cases he
  | (_, expr) :: fields, he => by
    rw [nodesFields] at he ⊢
    exact List.mem_append.mpr ((List.mem_append.mp he).imp (Expr.nodes_trans hnode expr)
      (nodesFields_trans hnode fields))

end

/-! ## planned members -/

theorem referenceAst_recorded {expr : Expr} {planned : PlannedEntryInputReference}
    (h : body.referenceAst expr = some planned) : body.Recorded expr.span := by
  unfold BodyLowering.referenceAst at h
  cases expr with
  | identifier span name => exact .inl (Option.isSome_of_eq_some h)
  | fieldAccess span source field => exact .inl (Option.isSome_of_eq_some h)
  | _ => cases h

/-- what a plan knows of a member stands for a path, or the member is in error -/
theorem plannedMember_free {span : Span} {source : Expr} {field : String} {lowered : Lowered Expr}
    (hsited : body.Sited (.fieldAccess span source field))
    (h : body.plannedMember span source field = some lowered) : source.isPath = true := by
  have hsource : body.Recorded source.span → source.isPath = true := by
    refine hsited source ?_
    rw [Expr.nodes]
    exact List.mem_cons_of_mem _ (Expr.self_mem_nodes _)
  unfold BodyLowering.plannedMember at h
  dsimp only at h
  rw [Option.or_eq_some_iff] at h
  obtain hlegacy | ⟨-, h⟩ := h
  · split_ifs at hlegacy
    obtain ⟨reference, hreference, -⟩ := Option.map_eq_some_iff.mp hlegacy
    exact hsource (referenceAst_recorded hreference)
  · obtain ⟨value, hvalue, -⟩ := Option.map_eq_some_iff.mp h
    rw [Option.or_eq_some_iff] at hvalue
    obtain hexpanded | ⟨-, hown⟩ := hvalue
    · obtain ⟨name, hname, -⟩ := Option.bind_eq_some_iff.mp hexpanded
      exact hsource (.inr (.inl (Option.isSome_of_eq_some hname)))
    · split at hown
      · rfl
      · cases hown

theorem plannedField_free {span : Span} {source : Expr} {field : String} {lowered : Lowered Expr}
    (hsited : body.Sited (.fieldAccess span source field))
    (h : body.plannedField span source field = some lowered) : source.isPath = true := by
  unfold BodyLowering.plannedField at h
  dsimp only at h
  obtain ⟨value, hvalue, -⟩ := Option.map_eq_some_iff.mp h
  rw [Option.or_eq_some_iff] at hvalue
  obtain houtput | ⟨-, hmember⟩ := hvalue
  · split_ifs at houtput
    obtain ⟨name, hname, -⟩ := Option.map_eq_some_iff.mp houtput
    have hpath : (Expr.fieldAccess span source field).isPath = true :=
      hsited _ (Expr.self_mem_nodes _) (.inr (.inr (Option.isSome_of_eq_some hname)))
    exact hpath
  · obtain ⟨planned, hplanned, -⟩ := Option.bind_eq_some_iff.mp hmember
    refine hsited source ?_ (referenceAst_recorded hplanned)
    rw [Expr.nodes]
    exact List.mem_cons_of_mem _ (Expr.self_mem_nodes _)

theorem fieldAccess_free {span : Span} {source : Expr} {field : String} (h : source.isPath = true) :
    ∀ node ∈ (Expr.fieldAccess span source field).nodes, ¬ body.IsAccess node :=
  isPath_free (show (Expr.fieldAccess span source field).isPath = true from h)

/-! ## ranged items -/

/-- a member of an input item is lowered to a safe access -/
theorem lowerInputItem_access {span itemSpan handleSpan : Span} {handle covenantId field : String}
    {range : RangeValueLocation} {index lowered : Expr} {planned : PlannedEntryInputReference}
    (hrange : body.inputRange handleSpan = some (covenantId, range))
    (hplanned : body.referenceUses handleSpan = some planned)
    (hok : (BodyLowering.lowerInputItem planned handle covenantId range field lowered).2 = []) :
    RangeAccess body
      (.fieldAccess span (.arrayIndex itemSpan (.identifier handleSpan handle) index) field)
      index lowered
      (BodyLowering.lowerInputItem planned handle covenantId range field lowered).1 := by
  have hsafe := checkedRangeIndex_safe lowered range
  unfold BodyLowering.lowerInputItem at hok ⊢
  dsimp only at hok ⊢
  split at hok
  next => exact .inputValue hrange hsafe
  next => exact .inputCovenantId hrange hsafe
  next hvalue hcov =>
    split at hok
    next value hfield => exact .inputField hrange hplanned hsafe hfield
    next => cases hok

theorem inputItem_access {span itemSpan handleSpan : Span} {handle field : String}
    {index lowered : Expr} {item : Lowered Expr}
    (h : body.inputItem handleSpan handle field lowered = some item) (hok : item.2 = []) :
    RangeAccess body
      (.fieldAccess span (.arrayIndex itemSpan (.identifier handleSpan handle) index) field)
      index lowered item.1 := by
  unfold BodyLowering.inputItem at h
  obtain ⟨⟨covenantId, range⟩, hrange, h⟩ := Option.bind_eq_some_iff.mp h
  obtain ⟨planned, hplanned, h⟩ := Option.bind_eq_some_iff.mp h
  have hitem := Option.some_inj.mp h
  rw [← hitem] at hok ⊢
  exact lowerInputItem_access hrange hplanned hok

theorem outputItem_access {span itemSpan handleSpan : Span} {handle field : String}
    {index lowered : Expr} {item : Lowered Expr}
    (h : body.outputItem handleSpan field lowered = some item) :
    RangeAccess body
      (.fieldAccess span (.arrayIndex itemSpan (.identifier handleSpan handle) index) field)
      index lowered item.1 := by
  unfold BodyLowering.outputItem at h
  obtain ⟨range, hrange, h⟩ := Option.bind_eq_some_iff.mp h
  split_ifs at h with hvalue
  rw [hvalue, ← Option.some_inj.mp h]
  exact .outputValue hrange (checkedRangeIndex_safe lowered range)

/-- the lowered item of a range, or what remains of an output that is not read for its value -/
theorem rangeItem_lowers {span itemSpan handleSpan : Span} {handle field : String} {index : Expr}
    {lowered result : Lowered Expr}
    (hsited : body.Sited
      (.fieldAccess span (.arrayIndex itemSpan (.identifier handleSpan handle) index) field))
    (hindex : lowered.2 = [] → Lowers body index lowered.1)
    (h : body.rangeItem span itemSpan handleSpan handle field index lowered = some result)
    (hok : result.2 = []) :
    Lowers body
      (.fieldAccess span (.arrayIndex itemSpan (.identifier handleSpan handle) index) field)
      result.1 := by
  unfold BodyLowering.rangeItem at h
  dsimp only at h
  -- an indexed handle is not what a plan knows of
  have hmember : body.plannedMember span (.arrayIndex itemSpan (.identifier handleSpan handle) index)
      field = none := by
    refine Option.eq_none_iff_forall_ne_some.mpr fun planned hplanned => ?_
    have hpath := plannedMember_free hsited hplanned
    cases hpath
  have hfield : body.plannedField span (.arrayIndex itemSpan (.identifier handleSpan handle) index)
      field = none := by
    refine Option.eq_none_iff_forall_ne_some.mpr fun planned hplanned => ?_
    have hpath := plannedField_free hsited hplanned
    cases hpath
  rw [hmember, hfield, Option.none_or, Option.or_none] at h
  split_ifs at h with hranged
  have hresult := Option.some_inj.mp h
  rw [← hresult] at hok ⊢
  obtain ⟨hlowered, hok⟩ := List.append_eq_nil_iff.mp hok
  have hindex := hindex hlowered
  cases hinput : body.inputItem handleSpan handle field lowered.1 with
  | some item =>
    rw [hinput, Option.some_or, Option.getD_some] at hok
    show Lowers body _ item.1
    exact .access hindex (inputItem_access hinput hok)
  | none =>
    cases houtput : body.outputItem handleSpan field lowered.1 with
    | some item =>
      show Lowers body _ item.1
      exact .access hindex (outputItem_access houtput)
    | none =>
      rw [hinput, houtput, Option.none_or, Option.getD_none] at hok
      show Lowers body _ (body.keptItem span itemSpan handleSpan handle field lowered.1).1
      unfold BodyLowering.keptItem at hok ⊢
      dsimp only at hok ⊢
      split_ifs at hok ⊢ with hrange
      have hhandle : Lowers body (.identifier handleSpan handle) (.identifier handleSpan handle) :=
        .identifier
      refine .fieldAccess ?_ (.arrayIndex hrange hhandle hindex)
      -- the value of an output item would have been lowered
      rintro (haccess | ⟨hsome, hvalue⟩)
      · exact hrange haccess
      · obtain ⟨range, hrange'⟩ := Option.isSome_iff_exists.mp hsome
        unfold BodyLowering.outputItem at houtput
        rw [hrange', hvalue] at houtput
        cases houtput

/-! ## calls and literals -/

theorem lowerDigest_lowers {span nameSpan : Span} {value : Expr} {lowered : Lowered Expr}
    (hvalue : lowered.2 = [] → Lowers body value lowered.1)
    (hok : (body.lowerDigest value lowered).2 = []) :
    Lowers body (.call span "digest" nameSpan [value]) (body.lowerDigest value lowered).1 := by
  have hoperand : (BodyLowering.lowerDigest.operand body value lowered).2 = [] →
      Lowers body (.call span "digest" nameSpan [value])
        (BodyLowering.lowerDigest.operand body value lowered).1 := by
    intro hok
    unfold BodyLowering.lowerDigest.operand at hok ⊢
    split at hok
    next => cases hok
    next state hstate =>
      split at hok
      next nameSpan' name hname =>
        split at hok
        next digest hdigest =>
          have hlowered := hvalue hok
          rw [hname] at hlowered
          exact .digestVariable hlowered
        next => exact absurd (List.append_eq_nil_iff.mp hok).2 (List.cons_ne_nil _ _)
      next => exact .digest (hvalue hok)
  unfold BodyLowering.lowerDigest at hok ⊢
  dsimp only at hok ⊢
  split at hok
  next source =>
    split at hok
    next => cases hok
    next => exact hoperand hok
  next => exact hoperand hok

theorem referenceDigest_free {span nameSpan : Span} {value digest : Expr}
    (hsited : body.Sited value) (h : body.referenceDigest [value] = some digest) :
    ∀ node ∈ (Expr.call span "digest" nameSpan [value]).nodes, ¬ body.IsAccess node := by
  unfold BodyLowering.referenceDigest at h
  split at h
  next stateSpan stateNameSpan reference hargs =>
    obtain rfl : value = .call stateSpan "state" stateNameSpan [reference] :=
      (List.cons.inj hargs).1
    obtain ⟨planned, hplanned, -⟩ := Option.bind_eq_some_iff.mp h
    have hpath : reference.isPath = true := by
      refine hsited reference ?_ (referenceAst_recorded hplanned)
      rw [Expr.nodes, nodesAll, nodesAll, List.append_nil]
      exact List.mem_cons_of_mem _ (Expr.self_mem_nodes _)
    intro node hnode
    rw [Expr.nodes, nodesAll, nodesAll, List.append_nil, Expr.nodes, nodesAll, nodesAll,
      List.append_nil] at hnode
    obtain rfl | hnode := List.mem_cons.mp hnode
    · exact id
    · obtain rfl | hnode := List.mem_cons.mp hnode
      · exact id
      · exact isPath_free hpath node hnode
  next => cases h

theorem lowerState_lowers {span nameSpan : Span} {reference : Expr} {index : Lowered Expr}
    (hsited : body.Sited reference)
    (hindex : ∀ itemSpan source authored, reference = .arrayIndex itemSpan source authored →
      index.2 = [] → Lowers body authored index.1)
    (hok : (body.lowerState reference index).2 = []) :
    Lowers body (.call span "state" nameSpan [reference]) (body.lowerState reference index).1 := by
  have happend : ∀ error : String, index.2 ++ [error] ≠ [] := fun error h =>
    List.cons_ne_nil _ _ (List.append_eq_nil_iff.mp h).2
  unfold BodyLowering.lowerState at hok ⊢
  dsimp only at hok ⊢
  split at hok
  next itemSpan handleSpan handle authored =>
    split at hok
    next covenantId range planned hrange hplanned =>
      split at hok
      next item hitem =>
        refine .access (hindex _ _ _ rfl hok) ?_
        exact .inputState hrange hplanned (checkedRangeIndex_safe _ _) hitem
      next => exact absurd hok (happend _)
    next => exact absurd hok (happend _)
  next =>
    split at hok
    next planned hplanned =>
      split at hok
      next complete hcomplete =>
        refine .planned fun node hnode => ?_
        rw [Expr.nodes, nodesAll, nodesAll, List.append_nil] at hnode
        obtain rfl | hnode := List.mem_cons.mp hnode
        · exact id
        · refine isPath_free ?_ node hnode
          exact hsited _ (Expr.self_mem_nodes _) (referenceAst_recorded hplanned)
      next => exact absurd hok (happend _)
    next => exact absurd hok (happend _)

theorem arrangeFields_perm (state : Option (String × List (String × Bool)))
    (fields : List (String × Expr)) : ∃ slots, (body.arrangeFields state fields).Perm (fields ++ slots) := by
  unfold BodyLowering.arrangeFields
  split
  next => exact ⟨[], by rw [List.append_nil]⟩
  next source storage => exact ⟨_, List.mergeSort_perm _ _⟩

theorem lowerStructLiteral_lowers {span nameSpan : Span} {name : String} {fields : List (String × Expr)}
    {lowered : Lowered (List (String × Expr))}
    (hnames : fields.map Prod.fst = lowered.1.map Prod.fst)
    (hexprs : lowered.2 = [] →
      List.Forall₂ (Lowers body) (fields.map Prod.snd) (lowered.1.map Prod.snd))
    (hok : (body.lowerStructLiteral span name nameSpan fields lowered).2 = []) :
    Lowers body (.structLiteral span name nameSpan fields)
      (body.lowerStructLiteral span name nameSpan fields lowered).1 := by
  unfold BodyLowering.lowerStructLiteral at hok ⊢
  split at hok
  next => cases hok
  next state hstate =>
    obtain ⟨slots, hperm⟩ := arrangeFields_perm state lowered.1
    exact .structLiteral hnames (hexprs hok) hperm

/-! ## a body -/

theorem map_fst_visitFields (fields : List (String × Expr)) :
    fields.map Prod.fst = (body.visitFields fields).1.map Prod.fst := by
  induction fields with
  | nil => rw [BodyLowering.visitFields]
  | cons field fields ih =>
    rw [BodyLowering.visitFields, List.map_cons, List.map_cons, ih]

section
variable {span nameSpan : Span} {name field kind : String} {source index left right expr : Expr}
variable {args : List Expr} {fields : List (String × Expr)}

theorem sited_of_subset (h : body.Sited expr) (hsub : ∀ node ∈ source.nodes, node ∈ expr.nodes) :
    body.Sited source :=
  fun node hnode => h node (hsub node hnode)

theorem sited_args (h : body.Sited (.call span name nameSpan args)) : ∀ arg ∈ args, body.Sited arg := by
  refine fun arg harg => sited_of_subset h fun node hnode => ?_
  rw [Expr.nodes]
  exact List.mem_cons_of_mem _ (mem_nodesAll.mpr ⟨arg, harg, hnode⟩)

theorem sited_exprs (h : body.Sited (.node span kind args)) : ∀ arg ∈ args, body.Sited arg := by
  refine fun arg harg => sited_of_subset h fun node hnode => ?_
  rw [Expr.nodes]
  exact List.mem_cons_of_mem _ (mem_nodesAll.mpr ⟨arg, harg, hnode⟩)

theorem sited_fields (h : body.Sited (.structLiteral span name nameSpan fields)) :
    ∀ field ∈ fields, body.Sited field.2 := by
  refine fun field hfield => sited_of_subset h fun node hnode => ?_
  rw [Expr.nodes]
  exact List.mem_cons_of_mem _ (mem_nodesFields.mpr ⟨field, hfield, hnode⟩)

theorem sited_source (h : body.Sited (.fieldAccess span source field)) : body.Sited source := by
  refine sited_of_subset h fun node hnode => ?_
  rw [Expr.nodes]
  exact List.mem_cons_of_mem _ hnode

theorem sited_indexed (h : body.Sited (.arrayIndex span source index)) :
    body.Sited source ∧ body.Sited index := by
  refine ⟨sited_of_subset h fun node hnode => ?_, sited_of_subset h fun node hnode => ?_⟩
  · rw [Expr.nodes]
    exact List.mem_cons_of_mem _ (List.mem_append_left _ hnode)
  · rw [Expr.nodes]
    exact List.mem_cons_of_mem _ (List.mem_append_right _ hnode)

theorem sited_operands (h : body.Sited (.add span left right)) : body.Sited left ∧ body.Sited right := by
  refine ⟨sited_of_subset h fun node hnode => ?_, sited_of_subset h fun node hnode => ?_⟩
  · rw [Expr.nodes]
    exact List.mem_cons_of_mem _ (List.mem_append_left _ hnode)
  · rw [Expr.nodes]
    exact List.mem_cons_of_mem _ (List.mem_append_right _ hnode)

theorem sited_length (h : body.Sited (.length span source)) : body.Sited source := by
  refine sited_of_subset h fun node hnode => ?_
  rw [Expr.nodes]
  exact List.mem_cons_of_mem _ hnode

theorem sited_neg (h : body.Sited (.neg span source)) : body.Sited source := by
  refine sited_of_subset h fun node hnode => ?_
  rw [Expr.nodes]
  exact List.mem_cons_of_mem _ hnode

theorem sited_inputValue (h : body.Sited (.inputValue span source)) : body.Sited source := by
  refine sited_of_subset h fun node hnode => ?_
  rw [Expr.nodes]
  exact List.mem_cons_of_mem _ hnode

theorem sited_outputValue (h : body.Sited (.outputValue span source)) : body.Sited source := by
  refine sited_of_subset h fun node hnode => ?_
  rw [Expr.nodes]
  exact List.mem_cons_of_mem _ hnode

end

/-! ### a whole expression -/

theorem visitExpr_fieldAccess {span : Span} {source : Expr} {field : String}
    (h : ∀ itemSpan handleSpan handle index,
      source = .arrayIndex itemSpan (.identifier handleSpan handle) index → False)
    (hplanned : (body.plannedMember span source field).or (body.plannedField span source field) =
      none) : body.visitExpr (.fieldAccess span source field) =
        (.fieldAccess span (body.visitExpr source).1 field, (body.visitExpr source).2) := by
  rw [BodyLowering.visitExpr]
  · rw [hplanned]
  · exact h

theorem visitExpr_length {span : Span} {source : Expr}
    (h : ∀ handleSpan handle, source = .identifier handleSpan handle → False) :
    body.visitExpr (.length span source) =
      (.length span (body.visitExpr source).1, (body.visitExpr source).2) := by
  rw [BodyLowering.visitExpr]
  exact h

theorem visitExpr_arrayIndex {span : Span} {source index : Expr}
    (h : ∀ handleSpan handle, source = .identifier handleSpan handle → False) :
    body.visitExpr (.arrayIndex span source index) =
      (.arrayIndex span (body.visitExpr source).1 (body.visitExpr index).1,
        (body.visitExpr source).2 ++ (body.visitExpr index).2) := by
  rw [BodyLowering.visitExpr]
  exact h

theorem visitExpr_lowers_all :
    (∀ expr, (body.visitExpr expr).2 = [] → body.Sited expr →
      Lowers body expr (body.visitExpr expr).1) ∧
    (∀ fields, (body.visitFields fields).2 = [] → (∀ field ∈ fields, body.Sited field.2) →
      List.Forall₂ (Lowers body) (fields.map Prod.snd) ((body.visitFields fields).1.map Prod.snd)) ∧
    ∀ exprs, (body.visitAll exprs).2 = [] → (∀ expr ∈ exprs, body.Sited expr) →
      List.Forall₂ (Lowers body) exprs (body.visitAll exprs).1 := by
  refine @BodyLowering.visitExpr.mutual_induct body
    (fun expr => (body.visitExpr expr).2 = [] → body.Sited expr →
      Lowers body expr (body.visitExpr expr).1)
    (fun fields => (body.visitFields fields).2 = [] → (∀ field ∈ fields, body.Sited field.2) →
      List.Forall₂ (Lowers body) (fields.map Prod.snd) ((body.visitFields fields).1.map Prod.snd))
    (fun exprs => (body.visitAll exprs).2 = [] → (∀ expr ∈ exprs, body.Sited expr) →
      List.Forall₂ (Lowers body) exprs (body.visitAll exprs).1)
    ?referenceArgument ?referenceDigest ?digest ?digestArity ?stateItem ?state ?stateArity ?call
    ?structLiteral ?rangeItem ?plannedItem ?item ?plannedField ?fieldAccess ?actorField ?identifier
    ?rangeLength ?handleLength ?length ?rangedItem ?handleIndex ?arrayIndex ?neg ?add ?inputValue
    ?outputValue ?node ?int ?activeInputIndex ?nil ?cons ?noFields ?fields
  case referenceArgument =>
    intro span name nameSpan args error herror hok _
    unfold BodyLowering.visitExpr at hok
    simp only [herror] at hok
    cases hok
  case referenceDigest =>
    intro span nameSpan value lowered errors digest hargument hvisit hdigest _ hok hsited
    unfold BodyLowering.visitExpr
    simp only [hargument, hvisit, hdigest, if_true]
    exact .planned (referenceDigest_free (sited_args hsited _ (List.mem_singleton_self _)) hdigest)
  case digest =>
    intro span nameSpan value lowered errors hargument hvisit hdigest ih hok hsited
    unfold BodyLowering.visitExpr at hok ⊢
    simp only [hargument, hvisit, hdigest, if_true] at hok ⊢
    refine lowerDigest_lowers (fun herrors => ?_) hok
    rw [hvisit] at ih
    cases ih herrors (sited_args hsited) with
    | cons hvalue _ => exact hvalue
  case digestArity =>
    intro span nameSpan args hargument hargs _ hok _
    unfold BodyLowering.visitExpr at hok
    simp only [hargument, if_true] at hok
    cases hok
  case stateItem =>
    intro span nameSpan itemSpan source index hdigest hargument ih hok hsited
    unfold BodyLowering.visitExpr at hok ⊢
    simp only [hargument, hdigest, if_true, if_false] at hok ⊢
    have hitem := sited_args hsited _ (List.mem_singleton_self _)
    refine lowerState_lowers hitem (fun itemSpan' source' authored heq herrors => ?_) hok
    cases heq
    exact ih herrors (sited_indexed hitem).2
  case state =>
    intro span nameSpan reference hitem hdigest hargument hok hsited
    unfold BodyLowering.visitExpr at hok ⊢
    simp only [hargument, hdigest, if_true, if_false] at hok ⊢
    refine lowerState_lowers (sited_args hsited _ (List.mem_singleton_self _)) ?_ hok
    exact fun itemSpan source authored heq _ => (hitem itemSpan source authored heq).elim
  case stateArity =>
    intro span nameSpan args hitem hreference hdigest hargument hok _
    unfold BodyLowering.visitExpr at hok
    simp only [hargument, hdigest, if_true, if_false] at hok
    cases hok
  case call =>
    intro span name nameSpan args hargument hdigest hstate ih hok hsited
    unfold BodyLowering.visitExpr at hok ⊢
    simp only [hargument, hdigest, hstate, if_false] at hok ⊢
    exact .call (ih hok (sited_args hsited))
  case structLiteral =>
    intro span name nameSpan fields ih hok hsited
    unfold BodyLowering.visitExpr at hok ⊢
    refine lowerStructLiteral_lowers (map_fst_visitFields fields) (fun herrors => ?_) hok
    exact ih herrors (sited_fields hsited)
  case rangeItem =>
    intro span itemSpan handleSpan handle index field _ result hresult ih hok hsited
    change body.rangeItem span itemSpan handleSpan handle field index (body.visitExpr index) =
      some result at hresult
    unfold BodyLowering.visitExpr at hok ⊢
    simp only [hresult] at hok ⊢
    refine rangeItem_lowers hsited (fun herrors => ?_) hresult hok
    exact ih herrors (sited_indexed (sited_source hsited)).2
  case plannedItem =>
    intro span itemSpan handleSpan handle index field _ hitem _ planned hplanned _ _ hsited
    obtain hplanned | ⟨-, hplanned⟩ := Option.or_eq_some_iff.mp hplanned
    · have hpath := plannedMember_free hsited hplanned
      cases hpath
    · have hpath := plannedField_free hsited hplanned
      cases hpath
  case item =>
    intro span itemSpan handleSpan handle index field _ hitem _ hplanned ih ihHandle hok hsited
    change body.rangeItem span itemSpan handleSpan handle field index (body.visitExpr index) =
      none at hitem
    change (body.plannedMember span (.arrayIndex itemSpan (.identifier handleSpan handle) index)
      field).or (body.plannedField span (.arrayIndex itemSpan (.identifier handleSpan handle) index)
        field) = none at hplanned
    have hno : ¬ ((body.inputRange handleSpan).isSome = true ∨
        (body.outputRange handleSpan).isSome = true) := by
      intro hsome
      unfold BodyLowering.rangeItem at hitem
      rw [if_pos hsome] at hitem
      cases hitem
    have hsource := sited_indexed (sited_source hsited)
    conv at hok => unfold BodyLowering.visitExpr
    conv => unfold BodyLowering.visitExpr
    simp only [hitem, hplanned] at hok ⊢
    obtain ⟨hhandle, hindex⟩ := List.append_eq_nil_iff.mp hok
    refine .fieldAccess (fun haccess => ?_) (.arrayIndex (fun haccess => hno (.inl haccess))
      (ihHandle hhandle hsource.1) (ih hindex hsource.2))
    exact hno (haccess.imp id And.left)
  case plannedField =>
    intro span source field hitem planned hplanned _ hsited
    refine .planned (fieldAccess_free ?_)
    obtain hplanned | ⟨-, hplanned⟩ := Option.or_eq_some_iff.mp hplanned
    · exact plannedMember_free hsited hplanned
    · exact plannedField_free hsited hplanned
  case fieldAccess =>
    intro span source field hitem hplanned ih hok hsited
    rw [visitExpr_fieldAccess hitem hplanned] at hok ⊢
    refine .fieldAccess (fun haccess => ?_) (ih hok (sited_source hsited))
    unfold BodyLowering.IsAccess at haccess
    split at haccess
    next heq => cases heq; exact hitem _ _ _ _ rfl
    next heq => cases heq
    next => exact haccess
  case actorField =>
    intro span name value hvalue _ _
    refine .planned (isPath_free rfl)
  case identifier =>
    intro span name hvalue _ _
    unfold BodyLowering.visitExpr
    simp only [hvalue]
    exact .identifier
  case rangeLength =>
    intro span handleSpan handle range hrange _ _
    refine .planned fun node hnode => ?_
    rw [Expr.nodes, Expr.nodes] at hnode
    obtain rfl | hnode := List.mem_cons.mp hnode
    · exact id
    · rw [List.mem_singleton.mp hnode]
      exact id
  case handleLength =>
    intro span handleSpan handle hrange ih hok hsited
    conv at hok => unfold BodyLowering.visitExpr
    conv => unfold BodyLowering.visitExpr
    simp only [hrange] at hok ⊢
    exact .length (ih hok (sited_length hsited))
  case length =>
    intro span source hsource ih hok hsited
    rw [visitExpr_length hsource] at hok ⊢
    exact .length (ih hok (sited_length hsited))
  case rangedItem =>
    intro span handleSpan handle index range hrange hok _
    unfold BodyLowering.visitExpr at hok
    simp only [hrange] at hok
    cases hok
  case handleIndex =>
    intro span handleSpan handle index hrange ihHandle ih hok hsited
    conv at hok => unfold BodyLowering.visitExpr
    conv => unfold BodyLowering.visitExpr
    simp only [hrange] at hok ⊢
    obtain ⟨hhandle, hindex⟩ := List.append_eq_nil_iff.mp hok
    obtain ⟨hsource, hsitedIndex⟩ := sited_indexed hsited
    refine .arrayIndex (fun haccess => ?_) (ihHandle hhandle hsource) (ih hindex hsitedIndex)
    have hsome : (body.inputRange handleSpan).isSome = true := haccess
    rw [hrange] at hsome
    cases hsome
  case arrayIndex =>
    intro span source index hhandle ihSource ih hok hsited
    rw [visitExpr_arrayIndex hhandle] at hok ⊢
    obtain ⟨hsource, hindex⟩ := List.append_eq_nil_iff.mp hok
    obtain ⟨hsitedSource, hsitedIndex⟩ := sited_indexed hsited
    refine .arrayIndex (fun haccess => ?_) (ihSource hsource hsitedSource) (ih hindex hsitedIndex)
    unfold BodyLowering.IsAccess at haccess
    split at haccess
    next heq => cases heq
    next heq => cases heq; exact hhandle _ _ rfl
    next => exact haccess
  case neg =>
    intro span expr ih hok hsited
    rw [BodyLowering.visitExpr] at hok ⊢
    exact .neg (ih hok (sited_neg hsited))
  case add =>
    intro span left right ihLeft ihRight hok hsited
    rw [BodyLowering.visitExpr] at hok ⊢
    obtain ⟨hleft, hright⟩ := List.append_eq_nil_iff.mp hok
    obtain ⟨hsitedLeft, hsitedRight⟩ := sited_operands hsited
    exact .add (ihLeft hleft hsitedLeft) (ihRight hright hsitedRight)
  case inputValue =>
    intro span index ih hok hsited
    rw [BodyLowering.visitExpr] at hok ⊢
    exact .inputValue (ih hok (sited_inputValue hsited))
  case outputValue =>
    intro span index ih hok hsited
    rw [BodyLowering.visitExpr] at hok ⊢
    exact .outputValue (ih hok (sited_outputValue hsited))
  case node =>
    intro span kind exprs ih hok hsited
    rw [BodyLowering.visitExpr] at hok ⊢
    exact .node (ih hok (sited_exprs hsited))
  case int =>
    intro span value _ _
    rw [BodyLowering.visitExpr]
    exact .int
  case activeInputIndex =>
    intro span _ _
    rw [BodyLowering.visitExpr]
    exact .activeInputIndex
  case nil =>
    intro _ _
    rw [BodyLowering.visitAll]
    exact .nil
  case cons =>
    intro expr exprs ih ihs hok hsited
    rw [BodyLowering.visitAll] at hok ⊢
    obtain ⟨hfirst, hrest⟩ := List.append_eq_nil_iff.mp hok
    exact .cons (ih hfirst (hsited _ List.mem_cons_self))
      (ihs hrest fun other hother => hsited other (List.mem_cons_of_mem _ hother))
  case noFields =>
    intro _ _
    rw [BodyLowering.visitFields]
    exact .nil
  case fields =>
    intro name expr fields ih ihs hok hsited
    rw [BodyLowering.visitFields] at hok ⊢
    obtain ⟨hfirst, hrest⟩ := List.append_eq_nil_iff.mp hok
    exact .cons (ih hfirst (hsited _ List.mem_cons_self))
      (ihs hrest fun other hother => hsited other (List.mem_cons_of_mem _ hother))

/-- **Every access of an accepted body is lowered to a safe index, at any depth.** -/
theorem lowerBody_lowers {exprs lowered : List Expr} (hsited : ∀ expr ∈ exprs, body.Sited expr)
    (h : body.lowerBody exprs = .ok lowered) : List.Forall₂ (Lowers body) exprs lowered := by
  unfold BodyLowering.lowerBody at h
  dsimp only at h
  split at h
  next => cases h
  next hlast =>
    rw [← Except.ok.inj h]
    exact visitExpr_lowers_all.2.2 exprs (List.getLast?_eq_none_iff.mp hlast) hsited

end Argent.Codegen
