import Argent.Codegen.GroupClosed
import Argent.Runtime.InputCounts

/-!
# Input counts in contracts and artifacts

The counts of a leader actor's entry are checked twice: by the builder, from the consumed
cardinalities of the artifact, and by the contract, which subtracts the leader and the singletons
from the size of the covenant's group.

* `groupCountChecks`      the statements of an input prelude that compare counts;
* `groupCountChecks_prelude`      what they are for a leader entry of a leader actor;
* `exists_groupCountChecks`      they admit the counts between the sums of the artifact;
* `cardinality_agreement`      **the artifact's check, the builder and the contract agree on the
                               cardinalities**.
-/

set_option linter.unusedSectionVars false

namespace Argent.Codegen
open Argent.Model Argent.Sil Argent.Fallible
open Argent.Artifacts (CardinalityArtifact ConsumeArtifact EntryKindArtifact EntryRefArtifact
  AtMostOneRange)

/-! ## the artifact's side -/

def cardinalityArtifact (interaction : EntryInteraction) : CardinalityArtifact :=
  match interaction.cardinality.rangeBounds with
  | none => .one
  | some bounds => .range bounds.minimum bounds.maximum

/-- a consumed input with the actor that its source names -/
def consumeArtifact (sourceActor : EntryInteraction → String) (interaction : EntryInteraction) :
    ConsumeArtifact :=
  ⟨interaction.handle, sourceActor interaction, cardinalityArtifact interaction⟩

def consumesArtifact (sourceActor : EntryInteraction → String) (entry : EntryModel) :
    List ConsumeArtifact :=
  entry.current.inputs.items.map (consumeArtifact sourceActor)

def entryKindArtifact : EntryKind → EntryKindArtifact
  | .leader => .leader
  | .delegate => .delegate

def leaderForArtifact (app : App) (actor : ActorModel) : List EntryRefArtifact :=
  (app.leaderFor actor.name).map fun reason => ⟨reason.1, reason.2⟩

/-! ## the contract's side -/

/-- whether a statement compares the size of a group or one of the `counts`, or defines one -/
def isCountCheck (counts : List String) : SilStatement → Bool
  | .define name _ => counts.contains name
  | .require (.binary _ (.identifier name) _) => counts.contains name
  | .require (.binary _ (.call .opCovInputCount _) _) => true
  | _ => false

def inputCountNames (entry : EntryModel) : List String :=
  entry.current.inputs.items.map fun interaction => hiddenInputCountName interaction.handle

/-- the statements of an entry's prelude that compare counts -/
def groupCountChecks (entry : EntryModel) (prelude : List SilStatement) : List SilStatement :=
  prelude.filter (isCountCheck (inputCountNames entry))

/-- the count checks of one consumed handle -/
def handleCountChecks (slotOffset : Nat) (interaction : EntryInteraction) : List SilStatement :=
  match interaction.cardinality, interaction.location with
  | .range bounds, .range _ singletonCount =>
    let count := hiddenInputCountName interaction.handle
    [.define count (countWithout (covInputCount hiddenCovIdName) (slotOffset + singletonCount)),
      comparison .ge (.identifier count) (.int bounds.minimum),
      comparison .le (.identifier count) (.int bounds.maximum)]
  | _, _ => []

/-! ## the count checks of a prelude -/

section
variable {entry : EntryModel}

theorem contains_inputCountNames_eq_false {front back : String} (h : back.toList ≠ [])
    (hlast : back.toList.getLast? ≠ some 't') :
    (inputCountNames entry).contains (front ++ back) = false := by
  rw [Bool.eq_false_iff, Ne, List.contains_iff_mem]
  intro hmem
  obtain ⟨interaction, -, hname⟩ := List.mem_map.mp hmem
  have hcount : some 't' = ("_count" : String).toList.getLast? := by decide
  rw [hcount] at hlast
  exact append_ne (by decide) h hlast.symm hname

theorem filter_readConsumedInput (handle : String) (position : SilExpr)
    (proof : InputTemplateProof) :
    (readConsumedInput handle position proof).filter (isCountCheck (inputCountNames entry)) = [] := by
  have hidx : isCountCheck (inputCountNames entry)
      (.define (hiddenInputIdxName handle) (covInputIdx hiddenCovIdName position)) = false :=
    contains_inputCountNames_eq_false (by decide) (by decide)
  unfold readConsumedInput
  rw [List.filter_cons_of_neg (by rw [hidx]; exact Bool.false_ne_true)]
  rfl

theorem filter_rangedCurrentInput {interaction : EntryInteraction}
    (h : interaction ∈ entry.current.inputs.items) {bounds : RangeBounds}
    (start singletonCount slotOffset : Nat) (proof : InputTemplateProof) :
    (rangedCurrentInput interaction.handle bounds start singletonCount slotOffset proof).filter
        (isCountCheck (inputCountNames entry)) =
      [.define (hiddenInputCountName interaction.handle)
          (countWithout (covInputCount hiddenCovIdName) (slotOffset + singletonCount)),
        comparison .ge (.identifier (hiddenInputCountName interaction.handle))
          (.int bounds.minimum),
        comparison .le (.identifier (hiddenInputCountName interaction.handle))
          (.int bounds.maximum)] := by
  have hcount : (inputCountNames entry).contains (hiddenInputCountName interaction.handle) = true :=
    List.contains_iff_mem.mpr (List.mem_map_of_mem h)
  have hdefine : ∀ value, isCountCheck (inputCountNames entry)
      (.define (hiddenInputCountName interaction.handle) value) = true := fun _ => hcount
  have hcompare : ∀ op right, isCountCheck (inputCountNames entry)
      (comparison op (.identifier (hiddenInputCountName interaction.handle)) right) = true :=
    fun _ _ => hcount
  unfold rangedCurrentInput
  dsimp only
  rw [List.filter_cons_of_pos (hdefine _), List.filter_cons_of_pos (hcompare _ _),
    List.filter_cons_of_pos (hcompare _ _)]
  rfl

/-- the reads of one handle compare its count, if it is ranged -/
theorem filter_consumedInput {interaction : EntryInteraction}
    (h : interaction ∈ entry.current.inputs.items) {slotOffset : Nat} {proof : InputTemplateProof}
    {statements : List SilStatement}
    (hread : consumedInput slotOffset interaction proof = .ok statements) :
    statements.filter (isCountCheck (inputCountNames entry)) =
      handleCountChecks slotOffset interaction := by
  unfold consumedInput at hread
  unfold handleCountChecks
  cases hcardinality : interaction.cardinality with
  | one =>
    cases hlocation : interaction.location with
    | range start singletonCount =>
      rw [hcardinality, hlocation] at hread
      cases hread
    | fromStart index =>
      rw [hcardinality, hlocation] at hread
      rw [← Except.ok.inj hread]
      exact filter_readConsumedInput _ _ _
    | fromEnd distance =>
      rw [hcardinality, hlocation] at hread
      rw [← Except.ok.inj hread]
      exact filter_readConsumedInput _ _ _
  | range bounds =>
    cases hlocation : interaction.location with
    | fromStart index =>
      rw [hcardinality, hlocation] at hread
      cases hread
    | fromEnd distance =>
      rw [hcardinality, hlocation] at hread
      cases hread
    | range start singletonCount =>
      rw [hcardinality, hlocation] at hread
      rw [← Except.ok.inj hread]
      exact filter_rangedCurrentInput h start singletonCount slotOffset proof

theorem filter_defineCovId :
    [defineCovId].filter (isCountCheck (inputCountNames entry)) = [] := by
  have hname : isCountCheck (inputCountNames entry) defineCovId = false :=
    contains_inputCountNames_eq_false (by decide) (by decide)
  rw [List.filter_cons_of_neg (by rw [hname]; exact Bool.false_ne_true)]
  rfl

/-- the count check of a policy -/
def policyCountChecks : CurrentInputGroupPolicy → List SilStatement
  | .leaderFixed count => [comparison .eq (covInputCount hiddenCovIdName) (number count)]
  | .delegate minimumCount =>
    [comparison .ge (covInputCount hiddenCovIdName) (number minimumCount)]
  | .batchable | .leaderRanged => []

theorem filter_groupPolicyChecks (policy : CurrentInputGroupPolicy) :
    (groupPolicyChecks policy).filter (isCountCheck (inputCountNames entry)) =
      policyCountChecks policy := by
  cases policy with
  | batchable => rfl
  | leaderRanged => rfl
  | leaderFixed count =>
    show _ :: (if 1 < count then _ else []).filter _ = _
    split_ifs
    · rfl
    · rfl
  | delegate minimumCount => rfl

end

/-! ## a leader entry of a leader actor -/

theorem filter_flatten_of_forall₂ {α β : Type} {p : β → Bool} {k : α → List β} {l : List α}
    {parts : List (List β)} (h : List.Forall₂ (fun a part => part.filter p = k a) l parts) :
    parts.flatten.filter p = l.flatMap k := by
  induction h with
  | nil => rfl
  | cons hpart _ ih => rw [List.flatten_cons, List.filter_append, hpart, ih, List.flatMap_cons]

section
variable {app : App} {plan : CompilerRoutePlan} {actor : ActorModel} {entry : EntryModel}
  {prelude : List SilStatement}

theorem requiresOptionalDelegateGuard_eq_false (hleader : app.isLeaderActor actor.name = true) :
    requiresOptionalDelegateGuard app actor entry = false := by
  unfold requiresOptionalDelegateGuard allowsCovenantBatching
  rw [hleader, Bool.not_true, Bool.and_false, Bool.false_and, Bool.false_and]

/-- what the count checks are for a leader entry of a leader actor -/
theorem groupCountChecks_prelude (hlow : currentInputPrelude app plan actor entry = .ok prelude)
    (hkind : entry.kind = .leader) (hleader : app.isLeaderActor actor.name = true) :
    groupCountChecks entry prelude =
      policyCountChecks (currentGroupPolicy app actor entry) ++
        entry.current.inputs.items.flatMap (handleCountChecks 1) := by
  obtain ⟨inputs, hinputs, hlow⟩ := bind_eq_ok.mp hlow
  obtain ⟨witnesses, -, hlow⟩ := bind_eq_ok.mp hlow
  obtain ⟨checks, hchecks, hlow⟩ := bind_eq_ok.mp hlow
  obtain ⟨hpolicy, hguard, hconsumed⟩ := entryInputPlan_ok hinputs
  have hitems : inputs.consumed.map Prod.fst = entry.current.inputs.items := by
    rw [← List.map_id entry.current.inputs.items]
    refine map_of_mapM_ok hconsumed fun interaction input hinput => ?_
    obtain ⟨reference, -, hpair⟩ := bind_eq_ok.mp hinput
    rw [← pure_eq_ok.mp hpair]
    rfl
  have hslot : (currentGroupPolicy app actor entry).slotOffset = 1 ∧
      currentGroupPolicy app actor entry ≠ .batchable := by
    rw [policy_leader hkind hleader]
    split_ifs
    · exact ⟨rfl, fun h => by cases h⟩
    · exact ⟨rfl, fun h => by cases h⟩
  unfold consumedGroupChecks at hchecks
  rw [hpolicy, if_neg hslot.2, hslot.1] at hchecks
  obtain ⟨reads, hreads, hchecks⟩ := bind_eq_ok.mp hchecks
  have hparts : List.Forall₂ (fun input part => part.filter (isCountCheck (inputCountNames entry)) =
      handleCountChecks 1 input.1) inputs.consumed reads := by
    refine forall₂_of_mapM hreads fun input hinput part hpart => ?_
    obtain ⟨proof, -, hread⟩ := bind_eq_ok.mp hpart
    exact filter_consumedInput (hitems ▸ List.mem_map_of_mem hinput) hread
  have hguarded : optionalDelegateGuard inputs = [] := by
    unfold optionalDelegateGuard
    rw [hguard, requiresOptionalDelegateGuard_eq_false hleader, if_neg Bool.false_ne_true]
  rw [← pure_eq_ok.mp hlow, ← pure_eq_ok.mp hchecks, hguarded, List.append_nil, ← hitems,
    List.flatMap_map, ← filter_flatten_of_forall₂ hparts, ← filter_groupPolicyChecks]
  unfold groupCountChecks
  rw [List.cons_append, ← List.singleton_append, List.filter_append, filter_defineCovId,
    List.nil_append, List.filter_append]

/-! ## what they admit -/

variable {ctx : ScriptContext} {frame : Frame} {covenant : Bytes}

theorem exists_execAll_fixed (hcov : frame.env.lookup hiddenCovIdName = some (.bytes covenant))
    (count : Nat) :
    (∃ out, execAll ctx (policyCountChecks (.leaderFixed count)) frame = some out) ↔
      (ctx.tx.covInputs covenant).length = count := by
  constructor
  · rintro ⟨out, h⟩
    obtain ⟨mid, hcount, -⟩ := execAll_cons.mp h
    obtain ⟨⟨v₁, v₂, hv₁, hv₂, hrun⟩, -⟩ := exec_comparison.mp hcount
    rw [eval_covInputCount hcov, Option.some_inj] at hv₁
    rw [eval_number, Option.some_inj] at hv₂
    rw [← hv₁, ← hv₂, run_eq, Value.int.injEq] at hrun
    omega
  · intro h
    refine ⟨frame, execAll_cons.mpr ⟨frame, exec_comparison.mpr ⟨?_, rfl⟩, execAll_nil.mpr rfl⟩⟩
    refine ⟨_, _, eval_covInputCount hcov, eval_number, ?_⟩
    rw [run_eq, h]

theorem exists_execAll_ranged (hcov : frame.env.lookup hiddenCovIdName = some (.bytes covenant))
    {count : String} (hnew : frame.env.lookup count = none) (excluded : Nat)
    (bounds : RangeBounds) :
    (∃ out, execAll ctx
      [.define count (countWithout (covInputCount hiddenCovIdName) excluded),
        comparison .ge (.identifier count) (.int bounds.minimum),
        comparison .le (.identifier count) (.int bounds.maximum)] frame = some out) ↔
      bounds.minimum ≤ (ctx.tx.covInputs covenant).length - (excluded : Int) ∧
        (ctx.tx.covInputs covenant).length - (excluded : Int) ≤ bounds.maximum := by
  have hvalue : (countWithout (covInputCount hiddenCovIdName) excluded).eval ctx frame.env =
      some (.int ((ctx.tx.covInputs covenant).length - excluded)) :=
    eval_countWithout (eval_covInputCount hcov)
  constructor
  · rintro ⟨out, h⟩
    obtain ⟨mid, hdefine, hbounds⟩ := execAll_cons.mp h
    obtain ⟨v, hv, -, hmid⟩ := exec_define.mp hdefine
    rw [hvalue, Option.some_inj] at hv
    have hlookup : mid.env.lookup count = some v := by rw [hmid, List.lookup_cons_self]
    rw [← hv] at hlookup
    exact (exec_bounds hlookup hbounds).1
  · rintro ⟨hmin, hmax⟩
    have hdefine := exec_define.mpr ⟨_, hvalue, hnew, rfl⟩
    refine ⟨_, execAll_cons.mpr ⟨_, hdefine, execAll_cons.mpr ⟨_, exec_comparison.mpr ⟨?_, rfl⟩,
      execAll_cons.mpr ⟨_, exec_comparison.mpr ⟨?_, rfl⟩, execAll_nil.mpr rfl⟩⟩⟩⟩
    · refine ⟨_, _, eval_identifier.trans List.lookup_cons_self, eval_int, ?_⟩
      rwa [run_ge]
    · refine ⟨_, _, eval_identifier.trans List.lookup_cons_self, eval_int, ?_⟩
      rwa [run_le]

end

/-! ## the sums of the artifact -/

section
variable {sourceActor : EntryInteraction → String} {items : List EntryInteraction}

theorem cardinalityArtifact_one {interaction : EntryInteraction}
    (h : interaction.cardinality = .one) : cardinalityArtifact interaction = .one := by
  unfold cardinalityArtifact
  rw [h]
  rfl

theorem cardinalityArtifact_range {interaction : EntryInteraction} {bounds : RangeBounds}
    (h : interaction.cardinality = .range bounds) :
    cardinalityArtifact interaction = .range bounds.minimum bounds.maximum := by
  unfold cardinalityArtifact
  rw [h]
  rfl

theorem cardinalityArtifact_inBounds (interaction : EntryInteraction) :
    (cardinalityArtifact interaction).InBounds := by
  intro minimum maximum h
  cases hcardinality : interaction.cardinality with
  | one =>
    rw [cardinalityArtifact_one hcardinality] at h
    cases h
  | range bounds =>
    rw [cardinalityArtifact_range hcardinality] at h
    cases h
    exact ⟨bounds.nonneg, bounds.ordered, bounds.limited⟩

theorem consumedCounts_append (consumes others : List ConsumeArtifact) :
    Runtime.consumedCounts (consumes ++ others) =
      ((Runtime.consumedCounts consumes).1 + (Runtime.consumedCounts others).1,
        (Runtime.consumedCounts consumes).2 + (Runtime.consumedCounts others).2) := by
  unfold Runtime.consumedCounts
  rw [List.map_append, List.sum_append, List.map_append, List.sum_append]

theorem consumedCounts_ones (h : ∀ item ∈ items, item.cardinality = .one) :
    Runtime.consumedCounts (items.map (consumeArtifact sourceActor)) =
      (items.length, items.length) := by
  induction items with
  | nil => rfl
  | cons item items ih =>
    obtain ⟨hitem, hrest⟩ := List.forall_mem_cons.mp h
    rw [List.map_cons, Runtime.consumedCounts_cons, ih hrest, List.length_cons]
    show (Runtime.minimumCount (cardinalityArtifact item) + _,
      Runtime.maximumCount (cardinalityArtifact item) + _) = _
    rw [cardinalityArtifact_one hitem]
    exact Prod.ext (Nat.add_comm 1 _) (Nat.add_comm 1 _)

theorem consumedCounts_ranged {pre post : List EntryInteraction} {item : EntryInteraction}
    {bounds : RangeBounds} (hrange : item.cardinality = .range bounds)
    (hones : ∀ other ∈ pre ++ post, other.cardinality = .one) :
    Runtime.consumedCounts ((pre ++ item :: post).map (consumeArtifact sourceActor)) =
      (pre.length + (bounds.minimum.toNat + post.length),
        pre.length + (bounds.maximum.toNat + post.length)) := by
  rw [List.map_append, List.map_cons, consumedCounts_append, Runtime.consumedCounts_cons,
    consumedCounts_ones fun other h => hones other (List.mem_append_left post h),
    consumedCounts_ones fun other h => hones other (List.mem_append_right pre h)]
  show (_ + (Runtime.minimumCount (cardinalityArtifact item) + _),
    _ + (Runtime.maximumCount (cardinalityArtifact item) + _)) = _
  rw [cardinalityArtifact_range hrange]
  rfl

theorem atMostOneRange_consumesArtifact (hshape : SectionShape items) :
    AtMostOneRange ((items.map (consumeArtifact sourceActor)).map (·.cardinality)) := by
  have hranges : ∀ {l : List EntryInteraction}, (∀ item ∈ l, item.cardinality = .one) →
      l.countP (fun item => (cardinalityArtifact item).isRange) = 0 := by
    intro l hl
    refine List.countP_eq_zero.mpr fun item hitem => ?_
    rw [cardinalityArtifact_one (hl item hitem)]
    exact Bool.false_ne_true
  rw [List.map_map]
  refine Artifacts.atMostOneRange_map.mpr ⟨fun item _ => cardinalityArtifact_inBounds item, ?_⟩
  show items.countP (fun item => (cardinalityArtifact item).isRange) ≤ 1
  cases hshape with
  | plain ones _ =>
    rw [hranges ones]
    exact Nat.zero_le 1
  | ranged bounds range ones _ _ _ =>
    rw [List.countP_append, List.countP_cons,
      hranges fun other h => ones other (List.mem_append_left _ h),
      hranges fun other h => ones other (List.mem_append_right _ h)]
    split_ifs <;> omega

end

/-! ## agreement -/

/-- what a script knows where its counts are checked -/
structure BeforeCounts (entry : EntryModel) (covenant : Bytes) (frame : Frame) : Prop where
  covId : frame.env.lookup hiddenCovIdName = some (.bytes covenant)
  counts : ∀ name ∈ inputCountNames entry, frame.env.lookup name = none

/-- the input calls the entry, as the compiler describes both in the artifact -/
structure EmittedFor (app : App) (actor : ActorModel) (entry : EntryModel)
    (input : Runtime.ResolveActorInput) : Prop where
  kind : input.artifactEntry.kind = entryKindArtifact entry.kind
  consumes : ∃ sourceActor, input.artifactEntry.consumes = consumesArtifact sourceActor entry
  leaderFor : input.actor.leaderFor = leaderForArtifact app actor

section
variable {app : App} {plan : CompilerRoutePlan} {actor : ActorModel} {entry : EntryModel}
  {prelude : List SilStatement} {ctx : ScriptContext} {frame : Frame} {covenant : Bytes}

/-- the count checks admit the counts between the sums of the artifact -/
theorem exists_groupCountChecks (hlow : currentInputPrelude app plan actor entry = .ok prelude)
    (hkind : entry.kind = .leader) (hleader : app.isLeaderActor actor.name = true)
    (hready : BeforeCounts entry covenant frame) (sourceActor : EntryInteraction → String) :
    (∃ out, execAll ctx (groupCountChecks entry prelude) frame = some out) ↔
      1 + (Runtime.consumedCounts (consumesArtifact sourceActor entry)).1 ≤
          (ctx.tx.covInputs covenant).length ∧
        (ctx.tx.covInputs covenant).length ≤
          1 + (Runtime.consumedCounts (consumesArtifact sourceActor entry)).2 := by
  rw [groupCountChecks_prelude hlow hkind hleader, policy_leader hkind hleader]
  have hnew := fun interaction (h : interaction ∈ entry.current.inputs.items) =>
    hready.counts _ (List.mem_map_of_mem h)
  unfold consumesArtifact
  have hshape := entry.current.inputs.shape
  generalize entry.current.inputs.items = items at hshape hnew ⊢
  cases hshape with
  | plain ones _ =>
    have hany : items.any (·.cardinality.isRange) = false := by
      refine List.any_eq_false.mpr fun item hitem => ?_
      rw [ones item hitem]
      exact Bool.false_ne_true
    have hnone : items.flatMap (handleCountChecks 1) = [] := by
      refine List.flatMap_eq_nil_iff.mpr fun item hitem => ?_
      unfold handleCountChecks
      rw [ones item hitem]
    rw [hany, if_neg Bool.false_ne_true, hnone, List.append_nil,
      exists_execAll_fixed hready.covId, consumedCounts_ones ones]
    show _ ↔ 1 + items.length ≤ _ ∧ _ ≤ 1 + items.length
    omega
  | @ranged pre post item bounds range ones location _ _ =>
    have hany : (pre ++ item :: post).any (·.cardinality.isRange) = true := by
      rw [List.any_append, List.any_cons, range]
      exact Bool.or_eq_true_iff.mpr (.inr rfl)
    have hnone : ∀ {l : List EntryInteraction}, (∀ other ∈ l, other.cardinality = .one) →
        l.flatMap (handleCountChecks 1) = [] := by
      intro l hl
      refine List.flatMap_eq_nil_iff.mpr fun other hother => ?_
      unfold handleCountChecks
      rw [hl other hother]
    have hitem : handleCountChecks 1 item =
        [.define (hiddenInputCountName item.handle) (countWithout (covInputCount hiddenCovIdName)
            (1 + (pre.length + post.length))),
          comparison .ge (.identifier (hiddenInputCountName item.handle)) (.int bounds.minimum),
          comparison .le (.identifier (hiddenInputCountName item.handle)) (.int bounds.maximum)] := by
      unfold handleCountChecks
      rw [range, location]
    rw [hany, if_pos rfl, List.flatMap_append, List.flatMap_cons,
      hnone fun other h => ones other (List.mem_append_left post h),
      hnone fun other h => ones other (List.mem_append_right pre h), List.append_nil, hitem,
      consumedCounts_ranged range ones]
    show (∃ out, execAll ctx [_, _, _] frame = some out) ↔ _
    rw [exists_execAll_ranged hready.covId (hnew item (List.mem_append_right pre List.mem_cons_self))]
    have hnonneg := bounds.nonneg
    have hordered := bounds.ordered
    show _ ↔ 1 + (pre.length + (bounds.minimum.toNat + post.length)) ≤ _ ∧
      _ ≤ 1 + (pre.length + (bounds.maximum.toNat + post.length))
    omega

theorem validateLeaderActorInputCount_emitted {context : Runtime.ResolveContext}
    {input : Runtime.ResolveActorInput} {inputIndex : Nat} {covenantId : Artifacts.Digest}
    (hkind : entry.kind = .leader) (hleader : app.isLeaderActor actor.name = true)
    (hinput : EmittedFor app actor entry input)
    (hid : input.source.utxo.covenantId = some covenantId) :
    Runtime.validateLeaderActorInputCount context (.actor input, inputIndex) =
      Runtime.validateInputCount inputIndex input
        (context.inputs.countP fun candidate => candidate.covenantId = some covenantId) := by
  have hled : input.actor.leaderFor.isEmpty = false := by
    unfold App.isLeaderActor at hleader
    rw [Bool.not_eq_true'] at hleader
    rw [hinput.leaderFor]
    unfold leaderForArtifact
    rw [List.isEmpty_map, hleader]
  have hordinary : input.artifactEntry.kind = .leader := by
    rw [hinput.kind, hkind]
    rfl
  unfold Runtime.validateLeaderActorInputCount
  dsimp only
  rw [if_neg (not_not_intro hordinary), hled, if_neg Bool.false_ne_true, hid]

/-- the builder admits what the contract admits -/
theorem validateLeaderActorInputCount_iff
    (hlow : currentInputPrelude app plan actor entry = .ok prelude)
    (hkind : entry.kind = .leader) (hleader : app.isLeaderActor actor.name = true)
    {context : Runtime.ResolveContext} {input : Runtime.ResolveActorInput} {inputIndex : Nat}
    {covenantId : Artifacts.Digest} (hinput : EmittedFor app actor entry input)
    (hvec : Runtime.FitsVec input.artifactEntry.consumes)
    (hid : input.source.utxo.covenantId = some covenantId)
    (hready : BeforeCounts entry covenantId.bytes frame)
    (hfound : context.inputs.countP (fun candidate => candidate.covenantId = some covenantId) =
      (ctx.tx.covInputs covenantId.bytes).length) :
    Runtime.validateLeaderActorInputCount context (.actor input, inputIndex) = .ok ⟨⟩ ↔
      ∃ out, execAll ctx (groupCountChecks entry prelude) frame = some out := by
  obtain ⟨sourceActor, hconsumes⟩ := hinput.consumes
  have hbounds : Runtime.inputCountBounds input.artifactEntry.consumes = _ :=
    Runtime.inputCountBounds_eq (by
      rw [hconsumes]
      exact atMostOneRange_consumesArtifact entry.current.inputs.shape) hvec
  rw [validateLeaderActorInputCount_emitted hkind hleader hinput hid,
    Runtime.validateInputCount_ok hbounds, hfound, hconsumes]
  exact (exists_groupCountChecks hlow hkind hleader hready sourceActor).symm

end

/-- **The artifact's check, the builder and the contract agree on cardinalities.**  The check accepts
the documented shapes; the sums of an accepted artifact never fail; and the builder admits the input
counts of a leader actor's entry that its contract admits. -/
theorem cardinality_agreement :
    (∀ artifact : Artifacts.Artifact,
      artifact.checkCardinality =
          (.ok ⟨⟩ : Except Artifacts.ArtifactCardinalityError PUnit.{1}) ↔
        ∀ actor ∈ artifact.argent.actors, ∀ entry ∈ actor.entries,
          Artifacts.SupportedRanges entry) ∧
    (∀ (crates : Runtime.RuntimeCrates) (builder : Runtime.TxBuilder crates)
        (context : Runtime.TxContext) (bound : Runtime.ResolveContext),
      builder.bindContext context = .ok bound →
      (∀ appAlias artifact, builder.bundle.apps.get appAlias = some artifact →
        Runtime.Artifact.FitsVecs artifact) →
      ∀ actor entry message, Runtime.validateLeaderActorInputCounts bound ≠
        .error (.error (.invalidTransition actor entry message))) ∧
    ∀ (app : App) (plan : CompilerRoutePlan) (actor : ActorModel) (entry : EntryModel)
        (prelude : List SilStatement),
      currentInputPrelude app plan actor entry = .ok prelude →
      entry.kind = .leader → app.isLeaderActor actor.name = true →
      ∀ (context : Runtime.ResolveContext) (input : Runtime.ResolveActorInput) (inputIndex : Nat)
        (covenantId : Artifacts.Digest) (ctx : ScriptContext) (frame : Frame),
      EmittedFor app actor entry input → Runtime.FitsVec input.artifactEntry.consumes →
      input.source.utxo.covenantId = some covenantId →
      BeforeCounts entry covenantId.bytes frame →
      context.inputs.countP (fun candidate => candidate.covenantId = some covenantId) =
        (ctx.tx.covInputs covenantId.bytes).length →
      (Runtime.validateLeaderActorInputCount context (.actor input, inputIndex) = .ok ⟨⟩ ↔
        ∃ out, execAll ctx (groupCountChecks entry prelude) frame = some out) := by
  refine ⟨fun artifact => Artifacts.checkCardinality_iff, ?_, ?_⟩
  · intro crates builder context bound hbound hvecs
    exact Runtime.validateLeaderActorInputCounts_ne hbound hvecs
  · intro app plan actor entry prelude hlow hkind hleader context input inputIndex covenantId ctx
      frame hinput hvec hid hready hfound
    exact validateLeaderActorInputCount_iff hlow hkind hleader hinput hvec hid hready hfound

/-! ## a sample -/

/-- a bank that pays together with one clerk and up to three more -/
def crowdedBank : ActorModel where
  name := "Bank"
  state := "Vault"
  entries := [{
    name := "payAll"
    kind := .leader
    current := {
      covenant := .current
      inputs := ⟨[⟨"clerk", .static [.inApp "Teller"], .one, .fromStart 0⟩,
        ⟨"others", .static [.inApp "Teller"],
          .range ⟨0, 3, by decide, by decide, by decide⟩, .range 1 1⟩], rfl⟩
      outputs := ⟨[⟨"rest", .static [.inApp "Bank"], .one, .fromStart 0⟩], rfl⟩ }
    foreign := []
    templateSelectors := []
    body := [.become [⟨0, "rest", .exactSelf⟩]]
    analysis := _
    analyzed := rfl
    delegateEmits := nofun }]

def crowdedEntry : EntryModel := crowdedBank.entries.get ⟨0, Nat.one_pos⟩

def crowdedApp : App where
  name := "Bank"
  actors := [crowdedBank, teller]
  distinct := by decide
  identifiers := by decide +kernel

theorem crowdedApp_planned : (inferDirectRoutes crowdedApp).isOk = true := by decide +kernel

theorem crowdedApp_suffixes : validateGeneratedActorSuffixes crowdedApp = .ok () := by decide +kernel

theorem crowdedApp_validated : ∀ actor ∈ crowdedApp.actors, ∀ entry ∈ actor.entries,
    validateEntry crowdedApp actor entry = .ok () := by decide +kernel

def compiledCrowdedApp : CompiledApp :=
  crowdedApp.compiled crowdedApp_planned crowdedApp_suffixes crowdedApp_validated

theorem crowdedPrelude_isSome : (currentInputPrelude crowdedApp compiledCrowdedApp.plan crowdedBank
    crowdedEntry).toOption.isSome = true := by decide +kernel

def crowdId : Artifacts.Digest := .repeated 34

/-- an output of the covenant that a transaction spends -/
def crowdUtxo : Runtime.UtxoEntry := ⟨1000, ⟨0, []⟩, 0, false, some crowdId⟩

def crowdOutpoint (index : UInt32) : Runtime.TransactionOutpoint := ⟨.repeated 17, index⟩

/-- a call of the bank's entry -/
def crowdCall : Runtime.ResolveActorInput where
  source := ⟨⟨none, "Bank"⟩, ∅, ⟨"payAll", .static []⟩, crowdOutpoint 0, crowdUtxo, 0⟩
  artifact := Artifacts.hive
  actor := { Artifacts.hiveActor "Bank" [] with
    leaderFor := leaderForArtifact crowdedApp crowdedBank }
  contractName := "Bank"
  contract := Artifacts.guestContract 0 default
  artifactEntry := { Artifacts.breedEntry with
    kind := .leader
    consumes := consumesArtifact (fun _ => "Teller") crowdedEntry }
  silEntry := ⟨[]⟩
  args := none
  observations := none
  spawnedActors := none
  hiddenArgs := none

/-- the call, with two inputs of its covenant and one without a covenant -/
def crowdContext : Runtime.ResolveContext where
  inputs := [.actor crowdCall,
    .ordinary ⟨crowdOutpoint 1, crowdUtxo, .static [], 0⟩,
    .ordinary ⟨crowdOutpoint 2, { crowdUtxo with covenantId := none }, .static [], 0⟩,
    .ordinary ⟨crowdOutpoint 3, crowdUtxo, .static [], 0⟩]
  outputs := []
  lockTime := 0
  subnetworkId := []
  gas := 0
  payload := []

/-- the same inputs, as a script sees them -/
def crowdScript : ScriptContext where
  tx :=
    { inputs := [⟨⟨[], 0⟩, some crowdId.bytes, [1], []⟩, ⟨⟨[], 1⟩, some crowdId.bytes, [2], []⟩,
        ⟨⟨[], 2⟩, none, [], []⟩, ⟨⟨[], 3⟩, some crowdId.bytes, [2], []⟩]
      outputs := [] }
  active := 0
  hashes := ⟨id⟩

theorem cardinality_agreement_crowd :
    (Artifacts.hive.checkCardinality =
        (.ok ⟨⟩ : Except Artifacts.ArtifactCardinalityError PUnit.{1}) ↔
      ∀ actor ∈ Artifacts.hive.argent.actors, ∀ entry ∈ actor.entries,
        Artifacts.SupportedRanges entry) ∧
    (∀ actor entry message, Runtime.validateLeaderActorInputCounts Runtime.broodBound ≠
      .error (.error (.invalidTransition actor entry message))) ∧
    ∃ prelude, currentInputPrelude crowdedApp compiledCrowdedApp.plan crowdedBank crowdedEntry =
        .ok prelude ∧
      (Runtime.validateLeaderActorInputCount crowdContext (.actor crowdCall, 0) = .ok ⟨⟩ ↔
        ∃ out, execAll crowdScript (groupCountChecks crowdedEntry prelude)
          ⟨[(hiddenCovIdName, .bytes crowdId.bytes)], []⟩ = some out) := by
  obtain ⟨haccepted, hsums, hadmitted⟩ := cardinality_agreement
  refine ⟨haccepted _, ?_, _, eq_ok_get crowdedPrelude_isSome, ?_⟩
  · refine hsums Runtime.hiveRuntimeCrates Runtime.hiveBuilder Runtime.broodContext
      Runtime.broodBound Runtime.broodBound_eq fun appAlias artifact hget => ?_
    have happs : Runtime.hiveBuilder.bundle.apps =
      (∅ : BTreeMap String Artifacts.Artifact).insert "hive" Artifacts.hive := rfl
    rw [happs, BTreeMap.get_insert] at hget
    split_ifs at hget
    · obtain rfl := Option.some.inj hget
      show ∀ actor ∈ Artifacts.hive.argent.actors, ∀ entry ∈ actor.entries,
        entry.consumes.length < 2 ^ 63
      decide
    · cases hget
  · refine hadmitted crowdedApp compiledCrowdedApp.plan crowdedBank crowdedEntry _
      (eq_ok_get crowdedPrelude_isSome) rfl (by decide) crowdContext crowdCall 0 crowdId crowdScript
      _ ⟨rfl, ⟨_, rfl⟩, rfl⟩ ?_ rfl ⟨rfl, ?_⟩ (by decide)
    · show crowdCall.artifactEntry.consumes.length < 2 ^ 63
      decide
    · decide

end Argent.Codegen
