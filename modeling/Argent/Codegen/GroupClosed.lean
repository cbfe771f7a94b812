import Argent.Codegen.CurrentGroupSound
import Argent.Model.ValidateSound

/-!
# Leader and delegate input groups

Every input of one covenant runs an entry of its actor and passes that entry's group checks.  An
input authenticates the contracts of other inputs, but not the entries they run; the rest follows
from the positions, the counts and the continuation outputs.

* `GroupRun`           a transaction and what each input of the covenant runs;
* `GroupClosed`        delegates have a leader, leaders own the group, delegates are not replaced;
* `groupRun_closed`    **every run of a group is closed**.
-/

set_option linter.unusedSectionVars false

namespace Argent.Codegen
open Argent.Model Argent.Sil Argent.Fallible

/-! ## runs -/

/-- What the inputs of a covenant run.  A template check compares the hash that the spender's
contract has with the hash of the expected actor, and the hashes tell the app's actors apart. -/
structure GroupRun (app : CompiledApp) (template : StaticActorId → Bytes) (tx : Transaction)
    (covenant : Bytes) where
  hashes : Hashes
  actor : Nat → ActorModel
  entry : Nat → EntryModel
  start : Nat → Frame
  finish : Nat → Frame
  identifies : ∀ a ∈ app.actors, ∀ b ∈ app.actors,
    template (.inApp a.name) = template (.inApp b.name) → a.name = b.name
  member : ∀ i ∈ tx.covInputs covenant, actor i ∈ app.actors
  dispatched : ∀ i ∈ tx.covInputs covenant, entry i ∈ (actor i).entries
  contract : ∀ i ∈ tx.covInputs covenant,
    (tx.inputs[i]?).map (·.template) = some (template (.inApp (actor i).name))
  templates : ∀ i ∈ tx.covInputs covenant,
    ∀ target ∈ (entryTemplateUses app.toApp (actor i).name (entry i)).reads,
      (start i).env.lookup (hiddenTemplateName (staticActorReference target)) =
        some (.bytes (template target))
  passes : ∀ i ∈ tx.covInputs covenant, ∃ statements,
    currentGroupChecks app.toApp app.plan (actor i) (entry i) = .ok statements ∧
      execAll ⟨tx, i, hashes⟩ statements (start i) = some (finish i)

/-- an ordinary entry with a `consumes` clause -/
def Coordinated (entry : EntryModel) : Prop :=
  entry.kind = .leader ∧ entry.current.inputs.items ≠ []

section
variable {app : CompiledApp} {template : StaticActorId → Bytes} {tx : Transaction}
  {covenant : Bytes}

/-- the guarantees of a leader and delegate group -/
structure GroupClosed (run : GroupRun app template tx covenant) : Prop where
  /-- a delegate runs behind a coordinated entry of the actor that it names as its leader -/
  led : ∀ d ∈ tx.covInputs covenant, (run.entry d).kind = .delegate →
    ∃ l, (tx.covInputs covenant).head? = some l ∧ Coordinated (run.entry l) ∧
      (run.entry d).leader = some (run.actor l).name
  /-- a coordinated entry runs first; its consumed items are the other inputs, in order, with its
  range at an admitted count -/
  covered : ∀ l ∈ tx.covInputs covenant, Coordinated (run.entry l) →
    (tx.covInputs covenant).head? = some l ∧ ∃ count : Nat,
      (∀ item ∈ (run.entry l).current.inputs.items, ∀ bounds, item.cardinality = .range bounds →
        bounds.minimum ≤ count ∧ count ≤ bounds.maximum) ∧
      (tx.covInputs covenant).tail.map (fun i => some (StaticActorId.inApp (run.actor i).name)) =
        ((run.entry l).current.inputs.expand count).map (·.target.singleStaticActor)
  /-- a coordinated entry authorizes every continuation output of the covenant -/
  owned : ∀ l ∈ tx.covInputs covenant, Coordinated (run.entry l) →
    tx.authOutputs l = tx.covOutputs covenant
  /-- behind a coordinated entry, an actor with a delegate for the leader runs such a delegate, and
  it authorizes nothing -/
  delegated : ∀ l ∈ tx.covInputs covenant, Coordinated (run.entry l) →
    ∀ i ∈ tx.covInputs covenant, i ≠ l →
      (∃ candidate ∈ (run.actor i).entries, candidate.isDelegateFor (run.actor l).name = true) →
      (run.entry i).isDelegateFor (run.actor l).name = true ∧ tx.authOutputs i = []

/-! ## policies -/

variable {actor : ActorModel} {entry : EntryModel} {other : App}

theorem policy_coordinated (h : Coordinated entry) :
    currentGroupPolicy other actor entry =
      if entry.current.inputs.items.any (·.cardinality.isRange) then .leaderRanged
      else .leaderFixed (entry.current.inputs.items.length + 1) := by
  have hbatch : allowsCovenantBatching other actor entry = false := by
    unfold allowsCovenantBatching
    rw [List.isEmpty_eq_false_iff.mpr h.2, Bool.and_false, Bool.false_and]
  unfold currentGroupPolicy
  rw [hbatch, h.1]
  rfl

theorem policy_delegate (h : entry.kind = .delegate) :
    currentGroupPolicy other actor entry =
      .delegate (entry.current.inputs.items.length + 1) := by
  have hbatch : allowsCovenantBatching other actor entry = false := by
    unfold allowsCovenantBatching
    rw [h]
    rfl
  unfold currentGroupPolicy
  rw [hbatch, h]
  rfl

theorem policy_leader (hkind : entry.kind = .leader)
    (hleader : other.isLeaderActor actor.name = true) :
    currentGroupPolicy other actor entry =
      if entry.current.inputs.items.any (·.cardinality.isRange) then .leaderRanged
      else .leaderFixed (entry.current.inputs.items.length + 1) := by
  have hbatch : allowsCovenantBatching other actor entry = false := by
    unfold allowsCovenantBatching
    rw [hleader, Bool.not_true, Bool.and_false]
  unfold currentGroupPolicy
  rw [hbatch, if_neg Bool.false_ne_true, hkind]

theorem policy_alone (hkind : entry.kind = .leader) (hinputs : entry.current.inputs.items = [])
    (hleader : other.isLeaderActor actor.name = true) :
    currentGroupPolicy other actor entry = .leaderFixed 1 := by
  rw [policy_leader hkind hleader, hinputs]
  rfl

theorem Coordinated.not_batchable (h : Coordinated entry) :
    currentGroupPolicy other actor entry ≠ .batchable := by
  rw [policy_coordinated h]
  split <;> exact nofun

/-! ## one input -/

variable (run : GroupRun app template tx covenant) {i : Nat}
include run

/-- what the checks of one input establish -/
theorem GroupRun.checked (hi : i ∈ tx.covInputs covenant) :
    ∃ witnesses out, templateWitnesses app.toApp app.plan (run.actor i) (run.entry i) =
        .ok witnesses ∧
      InputsChecked app.toApp witnesses (run.actor i) (run.entry i) ⟨tx, i, run.hashes⟩ covenant
        (run.start i).env out ∧
      out.Sub (run.finish i).env ∧
      OutputsChecked (run.entry i) ⟨tx, i, run.hashes⟩ (run.finish i).env := by
  obtain ⟨statements, hlow, hexec⟩ := run.passes i hi
  obtain ⟨inputs, hinputs, hlow⟩ := bind_eq_ok.mp hlow
  obtain ⟨outputs, houtputs, hlow⟩ := bind_eq_ok.mp hlow
  rw [← pure_eq_ok.mp hlow] at hexec
  obtain ⟨mid, hmid, hrest⟩ := execAll_append.mp hexec
  obtain ⟨witnesses, hwitnesses, hchecked⟩ := currentInputPrelude_ok hinputs
    (Transaction.mem_covInputs.mp hi) hmid
  exact ⟨witnesses, mid.env, hwitnesses, hchecked, (execAll_extends hrest).names,
    currentOutputPrelude_ok houtputs hrest⟩

theorem GroupRun.policy (hi : i ∈ tx.covInputs covenant) :
    CurrentInputGroupPolicy.Holds (tx.covInputs covenant) i
      (currentGroupPolicy app.toApp (run.actor i) (run.entry i)) := by
  obtain ⟨_, _, _, hchecked, _⟩ := run.checked hi
  exact hchecked.policy

theorem GroupRun.validated (hi : i ∈ tx.covInputs covenant) :
    EntryValidated app.toApp (run.actor i) (run.entry i) :=
  validateEntry_ok (app.validated _ (run.member i hi) _ (run.dispatched i hi))

/-- two inputs with one template hash run one actor -/
theorem GroupRun.name_of_contract {j : Nat} (hj : j ∈ tx.covInputs covenant)
    {input : TransactionInput} {id : DeclId} (hinput : tx.inputs[j]? = some input)
    (hid : (app.toApp.actor? id).isSome = true)
    (htemplate : input.template = template (.inApp id)) : id = (run.actor j).name := by
  obtain ⟨model, hmodel⟩ := Option.isSome_iff_exists.mp hid
  obtain ⟨hmember, hname⟩ := App.actor?_eq_some.mp hmodel
  have hcontract := run.contract j hj
  rw [hinput, Option.map_some, Option.some_inj, htemplate] at hcontract
  rw [← hname] at hcontract ⊢
  exact run.identifies model hmember _ (run.member j hj) hcontract

/-- an authenticated position holds an input of the declared actor -/
theorem GroupRun.authenticated_actor (hi : i ∈ tx.covInputs covenant)
    {interaction : EntryInteraction} (hmem : interaction ∈ (run.entry i).current.inputs.items)
    {witnesses : List TemplateWitnessSpec} {reference : InputReference}
    {proof : InputTemplateProof} {position : Nat}
    (hwitnesses : templateWitnesses app.toApp app.plan (run.actor i) (run.entry i) = .ok witnesses)
    (href : consumedReference app.toApp (run.actor i) (run.entry i) interaction = .ok reference)
    (hproof : inputTemplateProof witnesses (run.actor i) (run.entry i) interaction reference =
      .ok proof)
    (h : Authenticated ⟨tx, i, run.hashes⟩ covenant (run.start i).env proof position) :
    ∃ j, (tx.covInputs covenant)[position]? = some j ∧
      interaction.target.singleStaticActor = some (.inApp (run.actor j).name) := by
  obtain ⟨j, input, env', hj, hinput, hsub, hpasses⟩ := h
  have hjmem := List.mem_of_getElem? hj
  obtain ⟨target, htarget, id, rfl, hid⟩ := (run.validated hi).consumes interaction hmem
  refine ⟨j, hj, ?_⟩
  rw [htarget]
  unfold consumedReference at href
  rw [htarget] at href
  have href := Except.ok.inj href
  unfold inputTemplateProof at hproof
  rw [← href] at hproof
  dsimp only [inputAuthentication] at hproof
  by_cases hself : app.toApp.isSingletonActorSelfTarget (run.actor i).name id = true
  · -- the covenant domain of a singleton app
    unfold App.isSingletonActorSelfTarget at hself
    obtain ⟨hnames, hsource⟩ := Bool.and_eq_true_iff.mp hself
    have hj' := List.mem_map_of_mem (f := ActorModel.name) (run.member j hjmem)
    rw [of_decide_eq_true hnames, List.mem_singleton] at hj'
    rw [hj', of_decide_eq_true hsource]
  · rw [if_neg hself] at hproof
    dsimp only [Option.bind_some] at hproof
    cases hwitness : templateWitness? witnesses (.inApp id) with
    | none => rw [hwitness] at hproof; cases hproof
    | some witness =>
      rw [hwitness] at hproof
      dsimp only at hproof
      have hreads : StaticActorId.inApp id ∈
          (entryTemplateUses app.toApp (run.actor i).name (run.entry i)).reads := by
        refine List.mem_append_left _ (List.mem_filter.mpr ⟨?_, ?_⟩)
        · refine List.mem_flatMap.mpr ⟨_, List.mem_cons_self, List.mem_flatMap.mpr
            ⟨interaction, hmem, ?_⟩⟩
          exact ActorTarget.mem_staticActors_of_single htarget
        · exact readsTemplate_of_not_self hid hself
      have hlookup := hsub (run.templates i hi _ hreads)
      have hname : hiddenTemplateName witness.actor =
          hiddenTemplateName (staticActorReference (.inApp id)) := by
        rw [templateWitness?_actor hwitnesses hwitness]
      have hcheck : input.template = template (.inApp id) := by
        cases hform : witness.form with
        | bytes | len =>
          rw [hform] at hproof
          rw [← Except.ok.inj hproof] at hpasses
          obtain ⟨_, _, hpasses⟩ := Option.bind_eq_some_iff.mp hpasses
          obtain ⟨_, _, hpasses⟩ := Option.bind_eq_some_iff.mp hpasses
          obtain ⟨hash, hhash, hpasses⟩ := Option.bind_eq_some_iff.mp hpasses
          rw [eval_identifier, hname, hlookup, Option.some_inj] at hhash
          split at hpasses
          · rename_i heq
            rw [← hhash] at heq
            exact (Value.bytes.inj heq).symm
          · cases hpasses
      rw [run.name_of_contract hjmem hinput hid hcheck]

/-- an owned position of a consumed item holds an input of its actor -/
theorem GroupRun.consumed_actor (hi : i ∈ tx.covInputs covenant)
    (hbatch : currentGroupPolicy app.toApp (run.actor i) (run.entry i) ≠ .batchable)
    {interaction : EntryInteraction} (hmem : interaction ∈ (run.entry i).current.inputs.items) :
    let slotOffset := (currentGroupPolicy app.toApp (run.actor i) (run.entry i)).slotOffset
    let count := (tx.covInputs covenant).length
    (∀ position, interaction.location.Owns (count - slotOffset) position →
      ∃ j, (tx.covInputs covenant)[slotOffset + position]? = some j ∧
        interaction.target.singleStaticActor = some (.inApp (run.actor j).name)) ∧
    ∀ bounds start singletonCount, interaction.cardinality = .range bounds →
      interaction.location = .range start singletonCount →
      bounds.minimum ≤ count - (slotOffset + singletonCount : Nat) ∧
      count - (slotOffset + singletonCount : Nat) ≤ bounds.maximum := by
  intro slotOffset count
  obtain ⟨witnesses, _, hwitnesses, hchecked, _⟩ := run.checked hi
  obtain ⟨reference, proof, href, hproof, hpositions, hbounds⟩ :=
    hchecked.consumed hbatch interaction hmem
  exact ⟨fun position howns => run.authenticated_actor hi hmem hwitnesses href hproof
    (hpositions position howns), hbounds⟩

/-! ## coordinated entries -/

/-- a coordinated entry runs at the first input of its covenant -/
theorem GroupRun.coordinated_first (hi : i ∈ tx.covInputs covenant)
    (h : Coordinated (run.entry i)) : (tx.covInputs covenant).head? = some i := by
  have hpolicy := run.policy hi
  rw [policy_coordinated h] at hpolicy
  split at hpolicy
  · exact hpolicy
  · have := List.length_pos_iff.mpr h.2
    exact hpolicy.2 (by omega)

/-- the other inputs are the consumed items, with the range at its actual count -/
theorem GroupRun.coordinated_covered (hi : i ∈ tx.covInputs covenant)
    (h : Coordinated (run.entry i)) : ∃ count : Nat,
      (∀ item ∈ (run.entry i).current.inputs.items, ∀ bounds, item.cardinality = .range bounds →
        bounds.minimum ≤ count ∧ count ≤ bounds.maximum) ∧
      (tx.covInputs covenant).tail.map (fun i => some (StaticActorId.inApp (run.actor i).name)) =
        ((run.entry i).current.inputs.expand count).map (·.target.singleStaticActor) := by
  have hslot : (currentGroupPolicy app.toApp (run.actor i) (run.entry i)).slotOffset = 1 := by
    rw [policy_coordinated h]
    split <;> rfl
  have hitems := List.length_pos_iff.mpr h.2
  have hconsumed := fun {item} (hmem : item ∈ (run.entry i).current.inputs.items) =>
    run.consumed_actor hi h.not_batchable hmem
  rw [hslot] at hconsumed
  have hrange : ∀ item ∈ (run.entry i).current.inputs.items, ∀ bounds,
      item.cardinality = .range bounds →
      bounds.minimum ≤ (tx.covInputs covenant).length -
        ((run.entry i).current.inputs.items.length : Int) ∧
      (tx.covInputs covenant).length - ((run.entry i).current.inputs.items.length : Int) ≤
        bounds.maximum := by
    intro item hmem bounds hcard
    obtain ⟨start, hlocation⟩ := InteractionSection.range_location hmem hcard
    have := (hconsumed hmem).2 bounds start _ hcard hlocation
    rw [show 1 + ((run.entry i).current.inputs.items.length - 1) =
      (run.entry i).current.inputs.items.length by omega] at this
    exact this
  -- the actual count of the range is what the singletons and the leader leave
  refine ⟨(tx.covInputs covenant).length - (run.entry i).current.inputs.items.length,
    fun item hmem bounds hcard => ?_, ?_⟩
  · have := hrange item hmem bounds hcard
    have := bounds.nonneg
    omega
  have hlength : ((run.entry i).current.inputs.expand ((tx.covInputs covenant).length -
      (run.entry i).current.inputs.items.length)).length = (tx.covInputs covenant).length - 1 := by
    rw [InteractionSection.length_expand]
    have hpolicy := run.policy hi
    rw [policy_coordinated h] at hpolicy
    split
    · rename_i hany
      obtain ⟨item, hmem, hitem⟩ := List.any_eq_true.mp hany
      cases hcard : item.cardinality with
      | one => rw [hcard] at hitem; cases hitem
      | range bounds =>
        have := hrange item hmem bounds hcard
        have := bounds.nonneg
        omega
    · rename_i hany
      rw [if_neg hany] at hpolicy
      have := hpolicy.1
      omega
  refine List.ext_getElem? fun position => ?_
  rw [List.getElem?_map, List.getElem?_map, List.getElem?_tail]
  by_cases hposition : position < (tx.covInputs covenant).length - 1
  · obtain ⟨item, hitem⟩ : ∃ item, ((run.entry i).current.inputs.expand _)[position]? = some item :=
      ⟨_, List.getElem?_eq_getElem (hlength ▸ hposition)⟩
    obtain ⟨hmem, howns⟩ := InteractionSection.expand_owner hitem
    rw [hlength] at howns
    obtain ⟨j, hj, htarget⟩ := (hconsumed hmem).1 position howns
    rw [Nat.add_comm] at hj
    rw [hj, hitem, Option.map_some, Option.map_some, htarget]
  · rw [List.getElem?_eq_none (by omega), List.getElem?_eq_none (by omega)]
    rfl

/-- a coordinated entry authorizes every continuation output of its covenant -/
theorem GroupRun.coordinated_owns (hi : i ∈ tx.covInputs covenant)
    (h : Coordinated (run.entry i)) : tx.authOutputs i = tx.covOutputs covenant := by
  obtain ⟨_, out, _, hchecked, hsub, houtputs⟩ := run.checked hi
  refine Transaction.authOutputs_eq_covOutputs (Transaction.mem_covInputs.mp hi) ?_
  refine houtputs.coordinates ?_ covenant (hsub (hchecked.covId h.not_batchable))
  unfold coordinatesCurrentOutputs
  rw [h.1, List.isEmpty_eq_false_iff.mpr h.2]
  rfl

/-! ## delegates -/

/-- an ordinary entry without `consumes` of a leader actor is the only input -/
theorem GroupRun.alone (hi : i ∈ tx.covInputs covenant) (hkind : (run.entry i).kind = .leader)
    (hinputs : (run.entry i).current.inputs.items = [])
    (hleader : app.toApp.isLeaderActor (run.actor i).name = true) :
    tx.covInputs covenant = [i] := by
  have hpolicy := run.policy hi
  rw [policy_alone hkind hinputs hleader] at hpolicy
  obtain ⟨j, hj⟩ := List.length_eq_one_iff.mp hpolicy.1
  rw [hj] at hi ⊢
  rw [List.mem_singleton.mp hi]

/-- a delegate stands behind the first input, which has the actor that it names -/
theorem GroupRun.delegate_leader (hi : i ∈ tx.covInputs covenant)
    (hkind : (run.entry i).kind = .delegate) :
    ∃ l, (tx.covInputs covenant).head? = some l ∧ l ≠ i ∧
      (run.entry i).leader = some (run.actor l).name := by
  have hpolicy := run.policy hi
  rw [policy_delegate hkind] at hpolicy
  obtain ⟨first, hfirst⟩ : ∃ first, (run.entry i).current.inputs.items.head? = some first := by
    cases hitems : (run.entry i).current.inputs.items with
    | nil => exact absurd hitems ((run.validated hi).delegate hkind).2.1
    | cons first _ => exact ⟨first, rfl⟩
  have hbatch : currentGroupPolicy app.toApp (run.actor i) (run.entry i) ≠ .batchable := by
    rw [policy_delegate hkind]
    exact nofun
  have hconsumed := (run.consumed_actor hi hbatch (List.mem_of_head? hfirst)).1 0
  rw [policy_delegate hkind] at hconsumed
  obtain ⟨l, hl, htarget⟩ := hconsumed (InteractionSection.head_owns hfirst (by
    show _ ≤ (tx.covInputs covenant).length - 0
    have := hpolicy.1
    omega))
  have hhead : (tx.covInputs covenant).head? = some l := by
    rw [List.head?_eq_getElem?]
    exact hl
  refine ⟨l, hhead, fun heq => hpolicy.2 (heq ▸ hhead), ?_⟩
  unfold EntryModel.leader
  rw [hfirst, Option.bind_some, htarget]

/-- a delegate runs behind a coordinated entry of the actor that it names -/
theorem GroupRun.delegate_led (hi : i ∈ tx.covInputs covenant)
    (hkind : (run.entry i).kind = .delegate) :
    ∃ l, (tx.covInputs covenant).head? = some l ∧ Coordinated (run.entry l) ∧
      (run.entry i).leader = some (run.actor l).name := by
  obtain ⟨l, hhead, hne, hleader⟩ := run.delegate_leader hi hkind
  have hl := List.mem_of_head? hhead
  refine ⟨l, hhead, ⟨?_, fun hinputs => hne ?_⟩, hleader⟩
  · cases hkindl : (run.entry l).kind with
    | leader => rfl
    | delegate =>
      -- two delegates would both stand behind the first input
      obtain ⟨l', hhead', hne', _⟩ := run.delegate_leader hl hkindl
      rw [hhead, Option.some_inj] at hhead'
      exact absurd hhead'.symm hne'
  · have hkindl : (run.entry l).kind = .leader := by
      cases hkindl : (run.entry l).kind with
      | leader => rfl
      | delegate => exact absurd hinputs ((run.validated hl).delegate hkindl).2.1
    have halone := run.alone hl hkindl hinputs (App.isLeaderActor_iff.mpr
      ⟨_, run.member i hi, _, run.dispatched i hi, by
        unfold EntryModel.isDelegateFor
        rw [hkind, hleader, decide_eq_true rfl, decide_eq_true rfl, Bool.true_and]⟩)
    rw [halone, List.mem_singleton] at hi
    exact hi.symm

/-! ## delegate positions -/

/-- an entry that declares an output which cannot be absent authorizes an output -/
theorem GroupRun.authOutputs_ne_nil (hi : i ∈ tx.covInputs covenant)
    {output : EntryInteraction} (hmem : output ∈ (run.entry i).current.outputs.items)
    (hmin : output.cardinality.rangeBounds.any (fun bounds => decide (bounds.minimum = 0)) ≠ true) :
    tx.authOutputs i ≠ [] := by
  obtain ⟨_, _, _, _, _, houtputs⟩ := run.checked hi
  intro hnil
  cases hcard : output.cardinality with
  | one =>
    obtain ⟨position, j, _, hj, _⟩ := houtputs.singletons output hmem hcard
    have hj : (tx.authOutputs i)[position]? = some j := hj
    rw [hnil] at hj
    cases hj
  | range bounds =>
    obtain ⟨_, singletonCount, n, _, hn, hbounds, _⟩ := houtputs.ranges output hmem bounds hcard
    have hn : n = ((tx.authOutputs i).length : Int) - singletonCount := hn
    rw [hnil, List.length_nil] at hn
    refine hmin ?_
    rw [hcard]
    refine decide_eq_true ?_
    have := bounds.nonneg
    omega

/-- behind a coordinated entry, no ordinary entry runs on an actor with a delegate for it -/
theorem GroupRun.not_ordinary {l : Nat} (hl : l ∈ tx.covInputs covenant)
    (hcoordinated : Coordinated (run.entry l)) (hi : i ∈ tx.covInputs covenant) (hne : i ≠ l)
    {candidate : EntryModel} (hcandidate : candidate ∈ (run.actor i).entries)
    (hdelegate : candidate.kind = .delegate) : (run.entry i).kind = .delegate := by
  cases hkind : (run.entry i).kind with
  | delegate => rfl
  | leader =>
    exfalso
    have hfirst := run.coordinated_first hl hcoordinated
    by_cases hinputs : (run.entry i).current.inputs.items = []
    · by_cases hleader : app.toApp.isLeaderActor (run.actor i).name = true
      · rw [run.alone hi hkind hinputs hleader, List.mem_singleton] at hl
        exact hne hl.symm
      · -- the entry is batchable: either it is guarded or it authorizes an output
        have hbatch : allowsCovenantBatching app.toApp (run.actor i) (run.entry i) = true := by
          unfold allowsCovenantBatching
          rw [hkind, hinputs, Bool.eq_false_iff.mpr hleader]
          rfl
        by_cases hguard : requiresOptionalDelegateGuard app.toApp (run.actor i) (run.entry i) = true
        · obtain ⟨_, _, _, hchecked, _⟩ := run.checked hi
          have hhead := hchecked.guard hguard
          rw [hfirst, Option.some_inj] at hhead
          exact hne hhead.symm
        · unfold requiresOptionalDelegateGuard at hguard
          have hany : ((run.actor i).entries.any fun candidate =>
              decide (candidate.kind = .delegate)) = true :=
            List.any_eq_true.mpr ⟨candidate, hcandidate, decide_eq_true hdelegate⟩
          rw [hbatch, hany, Bool.true_and, Bool.true_and, List.all_eq_true] at hguard
          push Not at hguard
          obtain ⟨output, hmem, hmin⟩ := hguard
          exact run.authOutputs_ne_nil hi hmem hmin (Transaction.authOutputs_eq_nil
            (Transaction.mem_covInputs.mp hi) (run.coordinated_owns hl hcoordinated) hne)
    · have hhead := run.coordinated_first hi ⟨hkind, hinputs⟩
      rw [hfirst, Option.some_inj] at hhead
      exact hne hhead.symm

/-- **Every run of a leader and delegate group is closed.** -/
theorem groupRun_closed : GroupClosed run where
  led := fun _ hd hkind => run.delegate_led hd hkind
  covered := fun _ hl h => ⟨run.coordinated_first hl h, run.coordinated_covered hl h⟩
  owned := fun _ hl h => run.coordinated_owns hl h
  delegated := by
    intro l hl h i hi hne ⟨candidate, hcandidate, hfor⟩
    obtain ⟨hcandidateKind, _⟩ := Bool.and_eq_true_iff.mp hfor
    have hkind := run.not_ordinary hl h hi hne hcandidate (of_decide_eq_true hcandidateKind)
    obtain ⟨l', hhead, _, hleader⟩ := run.delegate_led hi hkind
    rw [run.coordinated_first hl h, Option.some_inj] at hhead
    refine ⟨?_, Transaction.authOutputs_eq_nil (Transaction.mem_covInputs.mp hi)
      (run.coordinated_owns hl h) hne⟩
    unfold EntryModel.isDelegateFor
    rw [hkind, hleader, hhead, decide_eq_true rfl, decide_eq_true rfl, Bool.true_and]

end

/-! ## a sample -/

/-- a bank pays together with a clerk and continues -/
def bank : ActorModel where
  name := "Bank"
  state := "Vault"
  entries := [{
    name := "pay"
    kind := .leader
    current := {
      covenant := .current
      inputs := ⟨[⟨"clerk", .static [.inApp "Teller"], .one, .fromStart 0⟩], rfl⟩
      outputs := ⟨[⟨"next", .static [.inApp "Bank"], .one, .fromStart 0⟩], rfl⟩ }
    foreign := []
    templateSelectors := []
    body := [.become [⟨0, "next", .exactSelf⟩]]
    analysis := _
    analyzed := rfl
    delegateEmits := nofun }]

/-- a clerk of the bank -/
def teller : ActorModel where
  name := "Teller"
  state := "Desk"
  entries := [{
    name := "assist"
    kind := .delegate
    current := {
      covenant := .current
      inputs := ⟨[⟨"bank", .static [.inApp "Bank"], .one, .fromStart 0⟩], rfl⟩
      outputs := .empty }
    foreign := []
    templateSelectors := []
    body := [.sil 0]
    analysis := _
    analyzed := rfl
    delegateEmits := fun _ => rfl }]

def bankApp : App where
  name := "Bank"
  actors := [bank, teller]
  distinct := by decide
  identifiers := by decide +kernel

theorem bankApp_planned : (inferDirectRoutes bankApp).isOk = true := by decide +kernel

theorem bankApp_suffixes : validateGeneratedActorSuffixes bankApp = .ok () := by decide +kernel

theorem bankApp_validated : ∀ actor ∈ bankApp.actors, ∀ entry ∈ actor.entries,
    validateEntry bankApp actor entry = .ok () := by decide +kernel

def compiledBankApp : CompiledApp :=
  bankApp.compiled bankApp_planned bankApp_suffixes bankApp_validated

def bankTemplate : StaticActorId → Bytes
  | .inApp id => if id = "Bank" then [1] else [2]
  | .linked _ => []

/-- a payment by the bank, with one clerk -/
def payment : Transaction where
  inputs := [⟨⟨[], 0⟩, some [7], [1], []⟩, ⟨⟨[], 1⟩, some [7], [2], []⟩]
  outputs := [⟨0, 0, [], some ⟨0, [7]⟩⟩]

/-- what a contract knows of the other actor's template -/
def knownTemplate (id : DeclId) : Frame where
  env := [(hiddenTemplateName id, .bytes (bankTemplate (.inApp id))),
    (hiddenWitnessPrefixLenName id, .int 3), (hiddenWitnessSuffixLenName id, .int 4)]
  checked := []

theorem bankTemplate_identifies : ∀ a ∈ bankApp.actors, ∀ b ∈ bankApp.actors,
    bankTemplate (.inApp a.name) = bankTemplate (.inApp b.name) → a.name = b.name := by decide

theorem exists_run {checks : Except String (List SilStatement)} {ctx : ScriptContext} {start : Frame}
    (h : (checks.toOption.bind fun statements => execAll ctx statements start).isSome = true) :
    ∃ finish statements, checks = .ok statements ∧
      execAll ctx statements start = some finish := by
  cases checks with
  | error _ => cases h
  | ok statements =>
    obtain ⟨finish, hfinish⟩ := Option.isSome_iff_exists.mp h
    exact ⟨finish, statements, rfl, hfinish⟩

theorem bank_passes : ∃ finish statements,
    currentGroupChecks bankApp compiledBankApp.plan bank (bank.entries.get ⟨0, Nat.one_pos⟩) =
      .ok statements ∧
      execAll ⟨payment, 0, ⟨id⟩⟩ statements (knownTemplate "Teller") = some finish :=
  exists_run (by decide +kernel)

theorem teller_passes : ∃ finish statements,
    currentGroupChecks bankApp compiledBankApp.plan teller
      (teller.entries.get ⟨0, Nat.one_pos⟩) = .ok statements ∧
      execAll ⟨payment, 1, ⟨id⟩⟩ statements (knownTemplate "Bank") = some finish :=
  exists_run (by decide +kernel)

theorem groupRun_closed_payment :
    ∃ run : GroupRun compiledBankApp bankTemplate payment [7], GroupClosed run := by
  obtain ⟨finish₀, hpay⟩ := bank_passes
  obtain ⟨finish₁, hassist⟩ := teller_passes
  refine ⟨{
    hashes := ⟨id⟩
    actor := fun i => if i = 0 then bank else teller
    entry := fun i => if i = 0 then bank.entries.get ⟨0, Nat.one_pos⟩
      else teller.entries.get ⟨0, Nat.one_pos⟩
    start := fun i => knownTemplate (if i = 0 then "Teller" else "Bank")
    finish := fun i => if i = 0 then finish₀ else finish₁
    identifies := bankTemplate_identifies
    member := ?_
    dispatched := ?_
    contract := ?_
    templates := ?_
    passes := ?_ }, groupRun_closed _⟩
  all_goals
    intro i hi
    obtain rfl | rfl : i = 0 ∨ i = 1 := by
      rwa [show payment.covInputs [7] = [0, 1] by decide, List.mem_cons, List.mem_singleton] at hi
  · exact List.mem_cons_self
  · exact List.mem_cons_of_mem _ List.mem_cons_self
  · exact List.mem_cons_self
  · exact List.mem_cons_self
  · rfl
  · rfl
  · show ∀ target ∈ (entryTemplateUses bankApp "Bank" (bank.entries.get ⟨0, Nat.one_pos⟩)).reads,
      (knownTemplate "Teller").env.lookup (hiddenTemplateName (staticActorReference target)) =
        some (.bytes (bankTemplate target))
    decide +kernel
  · show ∀ target ∈ (entryTemplateUses bankApp "Teller"
        (teller.entries.get ⟨0, Nat.one_pos⟩)).reads,
      (knownTemplate "Bank").env.lookup (hiddenTemplateName (staticActorReference target)) =
        some (.bytes (bankTemplate target))
    decide +kernel
  · exact hpay
  · exact hassist

end Argent.Codegen
