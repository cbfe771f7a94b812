import Argent.Base.Panics
import Argent.Runtime.Bind

/-!
# What binding guarantees

The covenant id of a genesis group is hashed from partly bound outputs, before deferred states are
evaluated and before the transaction exists.

* `GenesisGroupName.path_parse`      the text of a subgroup is the path of its name;
* `TxBuilder.bindOutputs_ok`, `bindGroups_ok`      what the first two phases establish;
* `TxBuilder.bindContext_genesis`      **a bound output of a group carries the id of the complete
                                       group, with the scripts that the transaction gives it**.
-/

set_option linter.unusedSectionVars false

namespace Argent.Runtime
open Argent.Fallible Argent.Sil Argent.Artifacts

/-! ## names of groups -/

namespace GenesisGroupName

theorem path_parse {path : String} {name : GenesisGroupName} (h : parse path = .ok name) :
    name.path = path := by
  obtain ⟨⟨kind, rest⟩, hsplit, h⟩ := bind_eq_ok.mp h
  obtain ⟨-, h⟩ := check_eq_ok.mp h
  have hpath := splitOnce_eq (okOr_eq_ok.mp hsplit)
  split_ifs at h with hlaunch hspawn
  · obtain rfl := pure_eq_ok.mp h
    rw [hpath, hlaunch]
    rfl
  · obtain rfl := pure_eq_ok.mp h
    rw [hpath, hspawn]
    rfl
  · cases h

theorem path_injective : Function.Injective path := by
  intro first second h
  have hlist := congrArg String.toList h
  cases first <;> cases second <;> simp only [path, String.toList_append] at hlist
  · rw [String.toList_inj.mp (List.append_cancel_left hlist)]
  · cases hlist
  · cases hlist
  · rw [String.toList_inj.mp (List.append_cancel_left hlist)]

end GenesisGroupName

/-! ## groups of outputs -/

/-- the key of the group that a covenant declares -/
def declaredGroup (covenant : OutputCovenant) : Option GenesisGroupKey :=
  match covenant with
  | .genesis authorizingInput subgroup =>
    (GenesisGroupKey.parse authorizingInput subgroup).toOption
  | _ => none

/-- the positions of the outputs of a subgroup, in transaction order -/
def groupIndices (context : TxContext) (authorizingInput : UInt16) (subgroup : String) : List Nat :=
  (context.outputs.zipIdx.filter fun item =>
    item.1.covenant = .genesis authorizingInput subgroup).map (·.2)

theorem pairwise_groupIndices (context : TxContext) (authorizingInput : UInt16) (subgroup : String) :
    (groupIndices context authorizingInput subgroup).Pairwise (· < ·) := by
  unfold groupIndices
  have hindices : (context.outputs.zipIdx.map (·.2)).Pairwise (· < ·) := by
    rw [List.zipIdx_map_snd]
    exact List.pairwise_lt_range'
  exact hindices.sublist (List.Sublist.map _ List.filter_sublist)

theorem mem_groupIndices {context : TxContext} {authorizingInput : UInt16} {subgroup : String}
    {index : Nat} : index ∈ groupIndices context authorizingInput subgroup ↔
      ∃ source, context.outputs[index]? = some source ∧
        source.covenant = .genesis authorizingInput subgroup := by
  unfold groupIndices
  rw [List.mem_map]
  constructor
  · rintro ⟨⟨source, index⟩, hmem, rfl⟩
    obtain ⟨hmem, hcovenant⟩ := List.mem_filter.mp hmem
    exact ⟨source, List.mem_zipIdx_iff_getElem?.mp hmem, of_decide_eq_true hcovenant⟩
  · rintro ⟨source, hsource, hcovenant⟩
    refine ⟨(source, index), List.mem_filter.mpr ⟨?_, decide_eq_true hcovenant⟩, rfl⟩
    exact List.mem_zipIdx_iff_getElem?.mpr hsource

/-- the outputs of a list by the groups that they declare -/
def keyedOutputs (items : List (ContextOutput × Nat)) : List (GenesisGroupKey × Nat) :=
  items.filterMap fun item => (declaredGroup item.1.covenant).map fun key => (key, item.2)

theorem declaredGroup_eq_some {covenant : OutputCovenant} {key : GenesisGroupKey}
    (h : declaredGroup covenant = some key) :
    covenant = .genesis key.authorizingInput key.name.path := by
  unfold declaredGroup at h
  cases covenant with
  | unbound => cases h
  | existing binding => cases h
  | genesis authorizingInput subgroup =>
    dsimp only at h
    cases hparse : GenesisGroupKey.parse authorizingInput subgroup with
    | error e =>
      rw [hparse] at h
      cases h
    | ok found =>
      rw [hparse] at h
      obtain rfl := Option.some.inj h
      obtain ⟨name, hname, hfound⟩ := bind_eq_ok.mp hparse
      obtain rfl := pure_eq_ok.mp hfound
      rw [GenesisGroupName.path_parse hname]

theorem declaredGroup_of_parse {authorizingInput : UInt16} {subgroup : String}
    {name : GenesisGroupName} (h : GenesisGroupName.parse subgroup = .ok name) :
    declaredGroup (.genesis authorizingInput subgroup) = some ⟨authorizingInput, name⟩ := by
  unfold declaredGroup GenesisGroupKey.parse
  dsimp only
  rw [h]
  rfl

/-- the outputs under a key are those with the text of its name -/
theorem collect_keyedOutputs {context : TxContext} {key : GenesisGroupKey}
    (h : GenesisGroupName.parse key.name.path = .ok key.name) :
    Groups.collect key (keyedOutputs context.outputs.zipIdx) =
      groupIndices context key.authorizingInput key.name.path := by
  unfold groupIndices keyedOutputs
  induction context.outputs.zipIdx with
  | nil => rfl
  | cons item items ih =>
    rw [List.filterMap_cons, List.filter_cons]
    by_cases hitem : item.1.covenant = .genesis key.authorizingInput key.name.path
    · rw [hitem, declaredGroup_of_parse h, Option.map_some, if_pos (by simp), List.map_cons, ← ih]
      exact (Groups.collect_append key [(key, item.2)] _).trans (by
        rw [Groups.collect_singleton, if_pos rfl, List.singleton_append])
    · rw [if_neg (by simpa using hitem), ← ih]
      cases hgroup : declaredGroup item.1.covenant with
      | none => rfl
      | some other =>
        have hne : other ≠ key := by
          rintro rfl
          exact hitem (declaredGroup_eq_some hgroup)
        exact (Groups.collect_append key [(other, item.2)] _).trans (by
          rw [Groups.collect_singleton, if_neg hne, List.nil_append])

theorem outputGroup_ok {inputs : List ResolveInput} {outputIndex : Nat} {output : ContextOutput}
    {group : Option GenesisGroupKey} (h : outputGroup inputs outputIndex output = .ok group) :
    declaredGroup output.covenant = group := by
  unfold outputGroup at h
  cases hcovenant : output.covenant with
  | existing binding =>
    rw [hcovenant] at h
    exact pure_eq_ok.mp h
  | unbound =>
    rw [hcovenant] at h
    cases howner : output.owner with
    | actor path state =>
      rw [howner] at h
      cases h
    | spk scriptPublicKey =>
      rw [howner] at h
      exact pure_eq_ok.mp h
  | genesis authorizingInput subgroup =>
    rw [hcovenant] at h
    obtain ⟨-, h⟩ := check_eq_ok.mp h
    obtain ⟨key, hkey, h⟩ := bind_eq_ok.mp h
    obtain ⟨_, -, h⟩ := bind_eq_ok.mp h
    obtain ⟨-, h⟩ := check_eq_ok.mp h
    obtain rfl := pure_eq_ok.mp h
    unfold declaredGroup
    dsimp only
    rw [hkey]
    rfl

/-- a genesis output is validated: its state is known and its authorizing input exists -/
theorem outputGroup_genesis {inputs : List ResolveInput} {outputIndex : Nat}
    {output : ContextOutput} {group : Option GenesisGroupKey} {authorizingInput : UInt16}
    {subgroup : String} (h : outputGroup inputs outputIndex output = .ok group)
    (hcovenant : output.covenant = .genesis authorizingInput subgroup) :
    (∀ path state, output.owner = .actor path state → state.isDeferred = false) ∧
    ∃ name authorizer, GenesisGroupName.parse subgroup = .ok name ∧
      inputs[authorizingInput.toNat]? = some authorizer ∧
      checkSpawnAuthorizer ⟨authorizingInput, name⟩ authorizer = .ok ⟨⟩ := by
  unfold outputGroup at h
  rw [hcovenant] at h
  obtain ⟨hdeferred, h⟩ := check_eq_ok.mp h
  obtain ⟨key, hkey, h⟩ := bind_eq_ok.mp h
  obtain ⟨authorizer, hauthorizer, h⟩ := bind_eq_ok.mp h
  obtain ⟨hspawn, h⟩ := check_eq_ok.mp h
  obtain ⟨name, hname, hkey⟩ := bind_eq_ok.mp hkey
  obtain rfl := pure_eq_ok.mp hkey
  refine ⟨fun path state howner => ?_, name, authorizer, hname, okOr_eq_ok.mp hauthorizer, hspawn⟩
  unfold rejectDeferred at hdeferred
  rw [howner, rejectIf_eq_ok, Bool.not_eq_true] at hdeferred
  exact hdeferred

namespace TxBuilder
variable {crates : RuntimeCrates} {builder : TxBuilder crates}

/-! ## the first phase -/

/-- a bound output beside its source -/
structure BoundBeside (builder : TxBuilder crates) (inputs : List ResolveInput)
    (item : ContextOutput × Nat) (output : BoundOutput) : Prop where
  source_eq : output.source = item.1
  group_ok : ∃ group, outputGroup inputs item.2 item.1 = .ok group
  actor : ∀ path state, item.1.owner = .actor path state →
    ∃ contract, builder.bindActor path = .ok contract ∧ output.owner = .actor path contract state
  spk : ∀ scriptPublicKey, item.1.owner = .spk scriptPublicKey →
    output.owner = .spk scriptPublicKey

theorem bindOutput_ok {inputs : List ResolveInput} {state state' : List BoundOutput × GenesisGroups}
    {item : ContextOutput × Nat} (h : builder.bindOutput inputs state item = .ok state') :
    ∃ output, BoundBeside builder inputs item output ∧ state'.1 = state.1 ++ [output] ∧
      state'.2 = pushGroup state.2 item.2 (declaredGroup item.1.covenant) := by
  obtain ⟨group, hgroup, h⟩ := bind_eq_ok.mp h
  obtain ⟨owner, howner, h⟩ := bind_eq_ok.mp h
  obtain rfl := pure_eq_ok.mp h
  refine ⟨⟨item.1, owner⟩, ⟨rfl, ⟨group, hgroup⟩, ?_, ?_⟩, rfl, ?_⟩
  · intro path outputState hactor
    rw [hactor] at howner
    obtain ⟨contract, hcontract, howner⟩ := bind_eq_ok.mp howner
    exact ⟨contract, hcontract, (pure_eq_ok.mp howner).symm⟩
  · intro scriptPublicKey hspk
    rw [hspk] at howner
    exact (pure_eq_ok.mp howner).symm
  · rw [outputGroup_ok hgroup]

theorem collects_pushGroup {items : List (ContextOutput × Nat)} {item : ContextOutput × Nat}
    {groups : GenesisGroups} (h : Groups.Collects (keyedOutputs items) groups) :
    Groups.Collects (keyedOutputs (items ++ [item]))
      (pushGroup groups item.2 (declaredGroup item.1.covenant)) := by
  unfold keyedOutputs
  rw [List.filterMap_append, List.filterMap_cons]
  cases hgroup : declaredGroup item.1.covenant with
  | none =>
    rw [Option.map_none, List.filterMap_nil, List.append_nil]
    exact h
  | some key =>
    rw [Option.map_some, List.filterMap_nil]
    exact h.push key item.2

/-- the first phase binds every output and collects the groups -/
theorem bindOutputs_ok {inputs : List ResolveInput} {items : List (ContextOutput × Nat)}
    {boundOutputs : List BoundOutput} {groups : GenesisGroups}
    (h : items.foldlM (builder.bindOutput inputs) ([], ∅) = .ok (boundOutputs, groups)) :
    List.Forall₂ (BoundBeside builder inputs) items boundOutputs ∧
      Groups.Collects (keyedOutputs items) groups := by
  refine foldlM_ok (fun done state => List.Forall₂ (BoundBeside builder inputs) done state.1 ∧
    Groups.Collects (keyedOutputs done) state.2) h ⟨List.Forall₂.nil, fun _ => rfl⟩ ?_
  intro done state item state' _ ⟨hbeside, hcollects⟩ hstep
  obtain ⟨output, houtput, hbound, hgroups⟩ := bindOutput_ok hstep
  rw [hbound, hgroups]
  exact ⟨List.rel_append hbeside (.cons houtput .nil), collects_pushGroup hcollects⟩

/-! ## the second phase -/

/-- the covenant id that the second phase computes for a group -/
def GroupHashed (crates : RuntimeCrates) (context : TxContext) (boundOutputs : List BoundOutput)
    (key : GenesisGroupKey) (indices : List Nat) (covenantId : Digest) : Prop :=
  ∃ authorizer hashed, context.inputs[key.authorizingInput.toNat]? = some authorizer ∧
    indices.mapM (genesisOutput crates boundOutputs) = .ok hashed ∧
    covenantId = crates.covenantId authorizer.outpoint hashed

/-- the ids in the state context are those of groups that were hashed -/
structure GroupsBound (crates : RuntimeCrates) (context : TxContext)
    (boundOutputs : List BoundOutput) (groups : List (GenesisGroupKey × List Nat))
    (stateContext : StateContext) : Prop where
  sound : ∀ authorizingInput subgroup covenantId,
    stateContext.genesisCovenantId authorizingInput subgroup = some covenantId →
      ∃ key indices, (key, indices) ∈ groups ∧ key.authorizingInput = authorizingInput ∧
        key.name.path = subgroup ∧ GroupHashed crates context boundOutputs key indices covenantId
  complete : ∀ key indices, (key, indices) ∈ groups →
    (stateContext.genesisCovenantId key.authorizingInput key.name.path).isSome = true

theorem bindGroup_ok {context : TxContext} {boundOutputs : List BoundOutput}
    {stateContext stateContext' : StateContext} {key : GenesisGroupKey} {indices : List Nat}
    (h : bindGroup crates context boundOutputs stateContext (key, indices) =
      .ok stateContext') :
    ∃ covenantId, GroupHashed crates context boundOutputs key indices covenantId ∧
      stateContext' = stateContext.insertGenesisCovenantId key.authorizingInput key.name.path
        covenantId := by
  obtain ⟨authorizer, hauthorizer, h⟩ := bind_eq_ok.mp h
  obtain ⟨hashed, hhashed, h⟩ := bind_eq_ok.mp h
  obtain rfl := pure_eq_ok.mp h
  exact ⟨_, ⟨authorizer, hashed, okOr_eq_ok.mp hauthorizer, hhashed, rfl⟩, rfl⟩

theorem bindGroups_ok {context : TxContext} {boundOutputs : List BoundOutput}
    {groups : List (GenesisGroupKey × List Nat)} {stateContext : StateContext}
    (h : groups.foldlM (bindGroup crates context boundOutputs) StateContext.empty =
      .ok stateContext) : GroupsBound crates context boundOutputs groups stateContext := by
  refine foldlM_ok (GroupsBound crates context boundOutputs) h
    ⟨fun _ _ _ h => absurd h (by simp [StateContext.genesisCovenantId_empty]),
      fun _ _ h => absurd h List.not_mem_nil⟩ ?_
  rintro done stateContext ⟨key, indices⟩ stateContext' _ hdone hstep
  obtain ⟨covenantId, hhashed, rfl⟩ := bindGroup_ok hstep
  refine ⟨fun authorizingInput subgroup found hfound => ?_, fun other others hmem => ?_⟩
  · rw [StateContext.genesisCovenantId_insert] at hfound
    split_ifs at hfound with hkey
    · obtain rfl := Option.some.inj hfound
      exact ⟨key, indices, List.mem_append_right _ List.mem_cons_self, hkey.1.symm, hkey.2.symm,
        hhashed⟩
    · obtain ⟨key', indices', hmem, hrest⟩ := hdone.sound _ _ _ hfound
      exact ⟨key', indices', List.mem_append_left _ hmem, hrest⟩
  · rw [StateContext.genesisCovenantId_insert]
    split_ifs with hkey
    · rfl
    · obtain hmem | hmem := List.mem_append.mp hmem
      · exact hdone.complete other others hmem
      · obtain ⟨rfl, rfl⟩ := Prod.mk.inj (List.mem_singleton.mp hmem)
        exact absurd ⟨rfl, rfl⟩ hkey

/-! ## all phases -/

/-- the phases of a successful binding, with what they pass on -/
structure Phases (builder : TxBuilder crates) (context : TxContext) (bound : ResolveContext)
    (boundOutputs : List BoundOutput) (groups : GenesisGroups) (stateContext : StateContext) :
    Prop where
  inputs_ok : context.inputs.mapM builder.bindInput = .ok bound.inputs
  beside : List.Forall₂ (BoundBeside builder bound.inputs) context.outputs.zipIdx boundOutputs
  collected : Groups.Collects (keyedOutputs context.outputs.zipIdx) groups
  hashed : GroupsBound crates context boundOutputs groups.entries stateContext
  outputs_ok : boundOutputs.zipIdx.mapM (resolveOutput stateContext) = .ok bound.outputs

theorem bindContext_phases {context : TxContext} {bound : ResolveContext}
    (h : builder.bindContext context = .ok bound) :
    ∃ boundOutputs groups stateContext,
      Phases builder context bound boundOutputs groups stateContext := by
  obtain ⟨inputs, hinputs, h⟩ := bind_eq_ok.mp h
  obtain ⟨⟨boundOutputs, groups⟩, hfirst, h⟩ := bind_eq_ok.mp h
  obtain ⟨stateContext, hsecond, h⟩ := bind_eq_ok.mp h
  obtain ⟨outputs, hthird, h⟩ := bind_eq_ok.mp h
  obtain rfl := pure_eq_ok.mp h
  obtain ⟨hbeside, hcollected⟩ := bindOutputs_ok hfirst
  exact ⟨boundOutputs, groups, stateContext, hinputs, hbeside, hcollected, bindGroups_ok hsecond,
    hthird⟩

/-- an output that was hashed before its state was evaluated keeps its script -/
theorem outputScript_of_boundScript {stateContext : StateContext} {outputIndex : Nat}
    {owner : BoundOutputOwner} {resolved : ResolvedOutputOwner} {script : ScriptPublicKey}
    (hscript : boundScript crates owner = .ok script)
    (hresolve : resolveOwner stateContext outputIndex owner = .ok resolved) :
    outputScript crates resolved = .ok script := by
  cases owner with
  | spk scriptPublicKey =>
    rw [← pure_eq_ok.mp hresolve]
    exact hscript
  | actor path contract state =>
    cases state with
    | withContext build => cases hscript
    | static state =>
      obtain ⟨found, hfound, hresolve⟩ := bind_eq_ok.mp hresolve
      rw [← pure_eq_ok.mp hresolve, ← Except.ok.inj (orFail_eq_ok.mp hfound)]
      exact hscript

theorem toU32_ok {index : Nat} {word : UInt32} (h : toU32 index = some word) :
    word.toNat = index := by
  unfold toU32 at h
  split_ifs at h with hlt
  rw [← Option.some.inj h]
  exact UInt32.toNat_ofNat_of_lt' hlt

/-- the hashed form of the output at `index` is that of the unsigned transaction without its
covenant binding -/
structure HashedAt (crates : RuntimeCrates) (bound : ResolveContext) (index : Nat)
    (hashed : UInt32 × TransactionOutput) : Prop where
  index_eq : hashed.1.toNat = index
  resolved : ∃ output final, bound.outputs[index]? = some output ∧
    unsignedOutput crates output = .ok final ∧
    hashed.2 = { final with covenant := none }
  transaction : ∀ unsigned, unsignedTransaction crates bound = .ok unsigned →
    ∃ final, unsigned.tx.outputs[index]? = some final ∧ hashed.2 = { final with covenant := none }

theorem unsignedTransaction_output {bound : ResolveContext} {unsigned : MutableTransaction}
    (h : unsignedTransaction crates bound = .ok unsigned) {index : Nat}
    {output : ResolvedOutput} (houtput : bound.outputs[index]? = some output) :
    ∃ final, unsigned.tx.outputs[index]? = some final ∧
      unsignedOutput crates output = .ok final := by
  obtain ⟨inputs, -, h⟩ := bind_eq_ok.mp h
  obtain ⟨outputs, houtputs, h⟩ := bind_eq_ok.mp h
  obtain rfl := pure_eq_ok.mp h
  exact getElem?_of_mapM_ok houtputs houtput

section
variable {context : TxContext} {bound : ResolveContext} {boundOutputs : List BoundOutput}
  {groups : GenesisGroups} {stateContext : StateContext}
  (h : Phases builder context bound boundOutputs groups stateContext)
include h

theorem Phases.length_outputs : bound.outputs.length = context.outputs.length := by
  have hbeside := h.beside.length_eq
  have hresolved := (mapM_ok h.outputs_ok).length_eq
  rw [List.length_zipIdx] at hbeside hresolved
  rw [← hresolved, ← hbeside]

theorem Phases.output_at {index : Nat} {source : ContextOutput}
    (hsource : context.outputs[index]? = some source) :
    ∃ boundOutput output, boundOutputs[index]? = some boundOutput ∧
      bound.outputs[index]? = some output ∧
      BoundBeside builder bound.inputs (source, index) boundOutput ∧
      resolveOutput stateContext (boundOutput, index) = .ok output := by
  obtain ⟨hi, rfl⟩ := List.getElem?_eq_some_iff.mp hsource
  have hi' : index < boundOutputs.length := by
    rw [← h.beside.length_eq, List.length_zipIdx]
    exact hi
  have hi'' : index < bound.outputs.length := h.length_outputs ▸ hi
  refine ⟨boundOutputs[index], bound.outputs[index], List.getElem?_eq_getElem hi',
    List.getElem?_eq_getElem hi'', ?_, ?_⟩
  · have hbeside := h.beside.get (by rw [List.length_zipIdx]; exact hi) hi'
    simp only [List.get_eq_getElem, List.getElem_zipIdx, Nat.zero_add] at hbeside
    exact hbeside
  · have hresolve := (mapM_ok h.outputs_ok).get (by rw [List.length_zipIdx]; exact hi') hi''
    simp only [List.get_eq_getElem, List.getElem_zipIdx, Nat.zero_add] at hresolve
    exact hresolve

theorem Phases.hashedAt {authorizingInput : UInt16} {subgroup : String} {index : Nat}
    (hindex : index ∈ groupIndices context authorizingInput subgroup)
    {hashed : UInt32 × TransactionOutput}
    (hhashed : genesisOutput crates boundOutputs index = .ok hashed) :
    HashedAt crates bound index hashed := by
  obtain ⟨⟨source, index⟩, hmem, rfl⟩ := List.mem_map.mp hindex
  have hsource := List.mem_zipIdx_iff_getElem?.mp (List.mem_filter.mp hmem).1
  obtain ⟨boundOutput, output, hbound, houtput, hbeside, hresolve⟩ := h.output_at hsource
  obtain ⟨found, hfound, hhashed⟩ := bind_eq_ok.mp hhashed
  obtain ⟨script, hscript, hhashed⟩ := bind_eq_ok.mp hhashed
  obtain ⟨word, hword, hhashed⟩ := bind_eq_ok.mp hhashed
  obtain rfl := pure_eq_ok.mp hhashed
  obtain rfl := Option.some.inj (hbound.symm.trans (expect_eq_ok.mp hfound))
  obtain ⟨binding, -, hresolve⟩ := bind_eq_ok.mp hresolve
  obtain ⟨owner, howner, hresolve⟩ := bind_eq_ok.mp hresolve
  obtain rfl := pure_eq_ok.mp hresolve
  have hunsigned : unsignedOutput crates ⟨owner, binding, boundOutput.source.value⟩ =
      .ok ⟨boundOutput.source.value, script, binding.covenant⟩ :=
    bind_eq_ok.mpr ⟨script, outputScript_of_boundScript hscript howner, rfl⟩
  refine ⟨toU32_ok (okOr_eq_ok.mp hword), ⟨_, _, houtput, hunsigned, rfl⟩, fun unsigned htx => ?_⟩
  obtain ⟨final, hfinal, hout⟩ := unsignedTransaction_output htx houtput
  obtain rfl := Except.ok.inj (hunsigned.symm.trans hout)
  exact ⟨_, hfinal, rfl⟩

/-- the id of a subgroup is hashed from all of its outputs -/
theorem Phases.group_hashed {authorizingInput : UInt16} {subgroup : String}
    {name : GenesisGroupName} (hparse : GenesisGroupName.parse subgroup = .ok name)
    {covenantId : Digest}
    (hid : stateContext.genesisCovenantId authorizingInput subgroup = some covenantId) :
    ∃ authorizer hashed, context.inputs[authorizingInput.toNat]? = some authorizer ∧
      (groupIndices context authorizingInput subgroup).mapM
        (genesisOutput crates boundOutputs) = .ok hashed ∧
      covenantId = crates.covenantId authorizer.outpoint hashed := by
  obtain ⟨key, indices, hmem, rfl, hpath, authorizer, hashed, hauthorizer, hmap, rfl⟩ :=
    h.hashed.sound _ _ _ hid
  have hname : key.name = name := by
    apply GenesisGroupName.path_injective
    rw [hpath, GenesisGroupName.path_parse hparse]
  have hindices : indices = groupIndices context key.authorizingInput subgroup := by
    rw [(h.collected.get_some (BTreeMap.mem_entries.mp hmem)).1, ← hpath]
    apply collect_keyedOutputs
    rw [hpath, hname]
    exact hparse
  exact ⟨authorizer, hashed, hauthorizer, hindices ▸ hmap, rfl⟩

/-- the binding of an output of a subgroup has the id of the subgroup -/
theorem Phases.genesis_binding {index : Nat} {source : ContextOutput}
    (hsource : context.outputs[index]? = some source) {authorizingInput : UInt16} {subgroup : String}
    (hcovenant : source.covenant = .genesis authorizingInput subgroup) {output : ResolvedOutput}
    (houtput : bound.outputs[index]? = some output) :
    ∃ name covenantId, GenesisGroupName.parse subgroup = .ok name ∧
      stateContext.genesisCovenantId authorizingInput subgroup = some covenantId ∧
      output.binding = .genesis ⟨authorizingInput, covenantId⟩ name := by
  obtain ⟨boundOutput, found, -, hfound, hbeside, hresolve⟩ := h.output_at hsource
  obtain rfl := Option.some.inj (houtput.symm.trans hfound)
  obtain ⟨binding, hbinding, hresolve⟩ := bind_eq_ok.mp hresolve
  obtain ⟨owner, -, hresolve⟩ := bind_eq_ok.mp hresolve
  obtain rfl := pure_eq_ok.mp hresolve
  rw [hbeside.source_eq, hcovenant] at hbinding
  obtain ⟨key, hkey, hbinding⟩ := bind_eq_ok.mp hbinding
  obtain ⟨covenantId, hid, hbinding⟩ := bind_eq_ok.mp hbinding
  obtain ⟨name, hname, hkey⟩ := bind_eq_ok.mp hkey
  obtain rfl := pure_eq_ok.mp hkey
  exact ⟨name, covenantId, hname, expect_eq_ok.mp hid, (pure_eq_ok.mp hbinding).symm⟩

end

/-- what binding makes of the output `source` of a context -/
structure OutputBound (crates : RuntimeCrates) (context : TxContext) (bound : ResolveContext)
    (source : ContextOutput) (output : ResolvedOutput) : Prop where
  value_eq : output.value = source.value
  existing : ∀ binding, source.covenant = .existing binding → output.binding = .existing binding
  unbound : source.covenant = .unbound → output.binding = .unbound
  genesis : ∀ authorizingInput subgroup, source.covenant = .genesis authorizingInput subgroup →
    ∃ name authorizer hashed, GenesisGroupName.parse subgroup = .ok name ∧
      context.inputs[authorizingInput.toNat]? = some authorizer ∧
      List.Forall₂ (HashedAt crates bound) (groupIndices context authorizingInput subgroup)
        hashed ∧
      output.binding =
        .genesis ⟨authorizingInput, crates.covenantId authorizer.outpoint hashed⟩ name

theorem Phases.outputBound {context : TxContext} {bound : ResolveContext}
    {boundOutputs : List BoundOutput} {groups : GenesisGroups} {stateContext : StateContext}
    (h : Phases builder context bound boundOutputs groups stateContext) {index : Nat}
    {source : ContextOutput} (hsource : context.outputs[index]? = some source) :
    ∃ output, bound.outputs[index]? = some output ∧
      OutputBound crates context bound source output := by
  obtain ⟨boundOutput, output, -, houtput, hbeside, hresolve⟩ := h.output_at hsource
  obtain ⟨binding, hbinding, hresolve⟩ := bind_eq_ok.mp hresolve
  obtain ⟨owner, -, hresolve⟩ := bind_eq_ok.mp hresolve
  obtain rfl := pure_eq_ok.mp hresolve
  have hsourceEq : boundOutput.source = source := hbeside.source_eq
  rw [hsourceEq] at hbinding houtput
  refine ⟨_, houtput, rfl, fun existing hcovenant => ?_, fun hcovenant => ?_,
    fun authorizingInput subgroup hcovenant => ?_⟩
  · rw [hcovenant] at hbinding
    exact (pure_eq_ok.mp hbinding).symm
  · rw [hcovenant] at hbinding
    exact (pure_eq_ok.mp hbinding).symm
  · obtain ⟨name, covenantId, hname, hid, hgenesis⟩ := h.genesis_binding hsource hcovenant houtput
    obtain ⟨authorizer, hashed, hauthorizer, hmap, rfl⟩ := h.group_hashed hname hid
    exact ⟨name, authorizer, hashed, hname, hauthorizer,
      forall₂_of_mapM hmap fun index hindex hashed hhashed => h.hashedAt hindex hhashed, hgenesis⟩

/-! ## panics -/

/-- the panics that the phases of binding rule out for each other -/
def Unexpected (message : String) : Prop := message = missingIdPanic ∨ message = deferredPanic

instance : DecidablePred Unexpected := fun message =>
  inferInstanceAs (Decidable (message = missingIdPanic ∨ message = deferredPanic))

/-- the panics that the check of an artifact rules out for the artifact -/
def artifactPanics : List String :=
  ["Sil ABI state span was checked before runtime-state materialization",
    "Sil ABI state span was verified when the artifact was attached",
    "generated field roles come from a runtime state plan"]

section
variable {bad : String → Prop}

theorem rolesByField_avoids (artifact : Artifact) (contractName : String)
    (contract : SilContractArtifact) (actorState : String) :
    Avoids bad (rolesByField artifact contractName contract actorState) := by
  unfold rolesByField
  cases artifact.argent.templatePlan.runtimeStatePlan contractName with
  | none => exact Avoids.pure _
  | some runtimePlan =>
    refine Avoids.bind (Avoids.rejectIf _ _) fun _ _ => Avoids.foldlM fun _ _ _ => ?_
    refine Avoids.bind (Avoids.rejectIf _ _) fun _ _ => ?_
    exact Avoids.bind (Avoids.rejectIf _ _) fun _ _ => Avoids.pure _

theorem stateExpansionPreimagePayload_avoids (artifact : Artifact) (contractName : String)
    (contract : SilContractArtifact) (digestField memoryState : String)
    (sourceState : BTreeMap String ArtifactValue) :
    Avoids bad (stateExpansionPreimagePayload crates artifact contractName contract
      digestField memoryState sourceState) := by
  unfold stateExpansionPreimagePayload
  refine Avoids.bind (Avoids.okOr _ _) fun memory _ => ?_
  split
  · refine Avoids.bind (Avoids.forM fun _ _ => Avoids.rejectIf _ _) fun _ _ => ?_
    exact Avoids.bind (Avoids.orFail _ _) fun _ _ => Avoids.pure _
  · exact Avoids.fail _

theorem bindActor_avoids (path : ActorPath) : Avoids bad (builder.bindActor path) := by
  refine Avoids.bind (Avoids.okOr _ _) fun _ _ => ?_
  exact Avoids.bind (Avoids.okOr _ _) fun _ _ => Avoids.pure _

theorem bindInput_avoids (input : ContextInput) : Avoids bad (builder.bindInput input) := by
  cases input with
  | ordinary input => exact Avoids.pure _
  | actor input =>
    refine Avoids.bind (bindActor_avoids _) fun _ _ => ?_
    refine Avoids.bind (Avoids.bind (Avoids.okOr _ _) fun _ _ => Avoids.pure _) fun _ _ => ?_
    refine Avoids.bind (Avoids.okOr _ _) fun _ _ => ?_
    exact Avoids.bind (Avoids.okOr _ _) fun _ _ => Avoids.pure _

theorem groupName_parse_avoids (path : String) : Avoids bad (GenesisGroupName.parse path) := by
  refine Avoids.bind (Avoids.okOr _ _) fun _ _ => ?_
  refine Avoids.bind (Avoids.rejectIf _ _) fun _ _ => ?_
  split_ifs
  · exact Avoids.pure _
  · exact Avoids.pure _
  · exact Avoids.fail _

theorem groupKey_parse_avoids (authorizingInput : UInt16) (path : String) :
    Avoids bad (GenesisGroupKey.parse authorizingInput path) :=
  Avoids.bind (groupName_parse_avoids path) fun _ _ => Avoids.pure _

theorem outputGroup_avoids (inputs : List ResolveInput) (outputIndex : Nat)
    (output : ContextOutput) : Avoids bad (outputGroup inputs outputIndex output) := by
  unfold outputGroup
  split
  · refine Avoids.bind ?_ fun _ _ => ?_
    · unfold rejectDeferred
      split
      · exact Avoids.rejectIf _ _
      · exact Avoids.pure _
    · refine Avoids.bind (groupKey_parse_avoids _ _) fun key _ => ?_
      refine Avoids.bind (Avoids.okOr _ _) fun authorizer _ => ?_
      refine Avoids.bind ?_ fun _ _ => Avoids.pure _
      unfold checkSpawnAuthorizer
      split
      · exact Avoids.pure _
      · split
        · exact Avoids.fail _
        · exact Avoids.rejectIf _ _
  · split
    · exact Avoids.fail _
    · exact Avoids.pure _
  · exact Avoids.pure _

theorem bindOutput_avoids (inputs : List ResolveInput) (state : List BoundOutput × GenesisGroups)
    (item : ContextOutput × Nat) : Avoids bad (builder.bindOutput inputs state item) := by
  refine Avoids.bind (outputGroup_avoids _ _ _) fun _ _ => ?_
  refine Avoids.bind ?_ fun _ _ => Avoids.pure _
  cases item.1.owner with
  | spk scriptPublicKey => exact Avoids.pure _
  | actor path state => exact Avoids.bind (bindActor_avoids path) fun _ _ => Avoids.pure _

theorem resolveBinding_avoids {stateContext : StateContext} {covenant : OutputCovenant}
    (h : ∀ key, declaredGroup covenant = some key →
      (stateContext.genesisCovenantId key.authorizingInput key.name.path).isSome = true) :
    Avoids bad (resolveBinding stateContext covenant) := by
  unfold resolveBinding
  cases covenant with
  | unbound => exact Avoids.pure _
  | existing binding => exact Avoids.pure _
  | genesis authorizingInput subgroup =>
    refine Avoids.bind (groupKey_parse_avoids _ _) fun key hkey => ?_
    obtain ⟨name, hname, hkey⟩ := bind_eq_ok.mp hkey
    have hsome := h _ (declaredGroup_of_parse hname)
    rw [GenesisGroupName.path_parse hname] at hsome
    obtain ⟨covenantId, hid⟩ := Option.isSome_iff_exists.mp hsome
    rw [hid]
    exact Avoids.pure _

variable (hbad : ∀ message ∈ artifactPanics, ¬ bad message)
include hbad

theorem runtimeFieldValue_avoids (artifact : Artifact) (contractName : String)
    (contract : SilContractArtifact) (actorState : String)
    (roleByField : BTreeMap String RuntimeFieldRolePlanArtifact)
    (sourceState : BTreeMap String ArtifactValue) (field : RuntimeFieldArtifact) :
    Avoids bad (runtimeFieldValue crates artifact contractName contract actorState
      roleByField sourceState field) := by
  unfold runtimeFieldValue
  split
  · split
    · refine Avoids.bind (stateExpansionPreimagePayload_avoids _ _ _ _ _ _) fun _ _ => ?_
      exact Avoids.pure _
    · exact Avoids.bind (Avoids.okOr _ _) fun _ _ => Avoids.pure _
  · refine Avoids.bind (Avoids.rejectIf _ _) fun _ _ => ?_
    refine Avoids.bind (Avoids.expect _ (hbad _ (by decide))) fun _ _ => ?_
    exact Avoids.bind (Avoids.orFail _ _) fun _ _ => Avoids.pure _

theorem runtimeStateValues_avoids (artifact : Artifact) (contractName : String)
    (contract : SilContractArtifact) (sourceState : BTreeMap String ArtifactValue) :
    Avoids bad (runtimeStateValues crates artifact contractName contract sourceState) := by
  refine Avoids.bind ?_ fun actorRef _ => ?_
  · exact Avoids.bind (Avoids.okOr _ _) fun _ _ => Avoids.pure _
  · refine Avoids.bind (rolesByField_avoids _ _ _ _) fun roleByField _ => ?_
    refine Avoids.bind (Avoids.foldlM fun _ _ _ => ?_) fun ⟨values, rest⟩ _ => ?_
    · exact Avoids.bind (runtimeFieldValue_avoids hbad _ _ _ _ _ _ _) fun _ _ => Avoids.pure _
    · dsimp only
      split
      · exact Avoids.fail _
      · exact Avoids.pure _

theorem redeemScript_avoids (contractRef : ContractRef)
    (sourceState : BTreeMap String ArtifactValue) :
    Avoids bad (redeemScriptForContract crates contractRef sourceState) := by
  refine Avoids.bind (runtimeStateValues_avoids hbad _ _ _ _) fun state _ => ?_
  refine Avoids.mapFault _ (Avoids.bind (Avoids.orFail _ _) fun _ _ => ?_)
  exact Avoids.bind (Avoids.expect _ (hbad _ (by decide))) fun _ _ => Avoids.pure _

theorem actorScript_avoids (contractRef : ContractRef)
    (sourceState : BTreeMap String ArtifactValue) :
    Avoids bad (actorScript crates contractRef sourceState) :=
  Avoids.bind (redeemScript_avoids hbad _ _) fun _ _ => Avoids.pure _

/-- the outputs of a collected group exist and have known states -/
theorem genesisOutput_avoids {inputs : List ResolveInput} {outputs : List ContextOutput}
    {boundOutputs : List BoundOutput}
    (hbeside : List.Forall₂ (BoundBeside builder inputs) outputs.zipIdx boundOutputs)
    {key : GenesisGroupKey} {index : Nat} (hmem : (key, index) ∈ keyedOutputs outputs.zipIdx) :
    Avoids bad (genesisOutput crates boundOutputs index) := by
  obtain ⟨item, hitem, hkey⟩ := List.mem_filterMap.mp hmem
  obtain ⟨found, hfound, hpair⟩ := Option.map_eq_some_iff.mp hkey
  obtain ⟨-, rfl⟩ := Prod.mk.inj hpair
  have hsource := List.mem_zipIdx_iff_getElem?.mp hitem
  obtain ⟨hi, hsame⟩ := List.getElem?_eq_some_iff.mp hsource
  have hi' : item.2 < boundOutputs.length := by
    rw [← hbeside.length_eq, List.length_zipIdx]
    exact hi
  have hbound := List.getElem?_eq_getElem hi'
  refine Avoids.bind (Avoids.of_eq_some hbound) fun boundOutput hfound' => ?_
  refine Avoids.bind ?_ fun _ _ => Avoids.bind (Avoids.okOr _ _) fun _ _ => Avoids.pure _
  have hat := hbeside.get (by rw [List.length_zipIdx]; exact hi) hi'
  simp only [List.get_eq_getElem, List.getElem_zipIdx, Nat.zero_add] at hat
  rw [Option.some.inj (hbound.symm.trans (expect_eq_ok.mp hfound'))] at hat
  obtain ⟨group, hgroup⟩ := hat.group_ok
  have hcovenant := declaredGroup_eq_some hfound
  rw [hsame] at hgroup hat
  have hstatic := (outputGroup_genesis hgroup hcovenant).1
  cases howner : item.1.owner with
  | spk scriptPublicKey =>
    rw [hat.spk scriptPublicKey howner]
    exact Avoids.pure _
  | actor path state =>
    obtain ⟨contract, -, hactor⟩ := hat.actor path state howner
    rw [hactor]
    have hknown := hstatic path state howner
    cases state with
    | static state => exact actorScript_avoids hbad _ _
    | withContext build => cases hknown

/-- no phase runs into a case that an earlier one was to exclude -/
theorem bindContext_avoids (context : TxContext) : Avoids bad (builder.bindContext context) := by
  refine Avoids.bind (Avoids.mapM fun input _ => bindInput_avoids input) fun inputs _ => ?_
  refine Avoids.bind (Avoids.foldlM fun _ _ _ => bindOutput_avoids _ _ _)
    fun ⟨boundOutputs, groups⟩ hfirst => ?_
  obtain ⟨hbeside, hcollected⟩ := bindOutputs_ok hfirst
  refine Avoids.bind (Avoids.foldlM fun stateContext ⟨key, indices⟩ hmem => ?_)
    fun stateContext hsecond => ?_
  · refine Avoids.bind (Avoids.okOr _ _) fun _ _ => ?_
    refine Avoids.bind (Avoids.mapM fun index hindex => ?_) fun _ _ => Avoids.pure _
    obtain ⟨rfl, -⟩ := hcollected.get_some (BTreeMap.mem_entries.mp hmem)
    exact genesisOutput_avoids hbad hbeside (Groups.mem_collect.mp hindex)
  · refine Avoids.bind (Avoids.mapM fun ⟨boundOutput, index⟩ hmem => ?_) fun _ _ => Avoids.pure _
    refine Avoids.bind (resolveBinding_avoids fun key hkey => ?_) fun _ _ => ?_
    · have hbound := List.mem_of_getElem? (List.mem_zipIdx_iff_getElem?.mp hmem)
      obtain ⟨item, hitem, hat⟩ := mem_of_forall₂_left (List.Forall₂.flip hbeside) hbound
      rw [hat.source_eq] at hkey
      have hkeyed : (key, item.2) ∈ keyedOutputs context.outputs.zipIdx :=
        List.mem_filterMap.mpr ⟨item, hitem, by rw [hkey, Option.map_some]⟩
      exact (bindGroups_ok hsecond).complete key _
        (BTreeMap.mem_entries.mpr (hcollected.get_of_mem hkeyed))
    · refine Avoids.bind ?_ fun _ _ => Avoids.pure _
      cases boundOutput.owner with
      | spk scriptPublicKey => exact Avoids.pure _
      | actor path contract state => exact Avoids.bind (Avoids.orFail _ _) fun _ _ => Avoids.pure _

end

/-- Every bound output of a genesis group carries the covenant id of the complete group: of all
outputs with the same authorizing input and subgroup in index order, with the values and scripts
that the unsigned transaction gives them.  Other outputs keep their bindings, and whether or not
binding succeeds, no phase runs into a case that an earlier one was to exclude. -/
theorem bindContext_genesis (crates : RuntimeCrates) (builder : TxBuilder crates)
    (context : TxContext) :
    (∀ bound, builder.bindContext context = .ok bound →
      bound.outputs.length = context.outputs.length ∧
      ∀ (index : Nat) (source : ContextOutput), context.outputs[index]? = some source →
        ∃ output : ResolvedOutput, bound.outputs[index]? = some output ∧
          OutputBound crates context bound source output) ∧
    builder.bindContext context ≠ .error (.panic missingIdPanic) ∧
    builder.bindContext context ≠ .error (.panic deferredPanic) := by
  refine ⟨fun bound h => ?_, fun h => ?_, fun h => ?_⟩
  · obtain ⟨boundOutputs, groups, stateContext, hphases⟩ := bindContext_phases h
    exact ⟨hphases.length_outputs, fun index source hsource => hphases.outputBound hsource⟩
  · exact @bindContext_avoids crates builder Unexpected (by decide) context _ h (Or.inl rfl)
  · exact @bindContext_avoids crates builder Unexpected (by decide) context _ h (Or.inr rfl)

end TxBuilder

end Argent.Runtime
