import Argent.Artifacts.Handles
import Argent.Runtime.Bind
import Argent.Runtime.HiddenArgs

/-!
# What physical states are made of

Each field of a physical state has one source: its author, the template plan, or the object that an
expansion hides behind a digest.  The object is encoded twice, for the digest and for the contract
that opens it.

* `FieldValue`      the value of a field, by its source;
* `runtimeStateValues_ok`      a state is built when every field has its value and nothing is left;
* `runtimeStateValues_built`      **when states can be built, and what they are then**.
-/

set_option linter.unusedSectionVars false

namespace Argent.Runtime
open Argent.Fallible Argent.Sil Argent.Artifacts

/-! ## fields taken one by one -/

theorem erase_of_get_eq_none {α β : Type*} [LinearOrder α] {m : BTreeMap α β} {a : α}
    (h : m.get a = none) : m.erase a = m := by
  refine BTreeMap.ext_get fun x => ?_
  rw [BTreeMap.get_erase]
  split_ifs with hx
  · rw [hx, h]
  · rfl

section
variable {ε : Type} {step : BTreeMap String ArtifactValue → RuntimeFieldArtifact →
    Except ε (ArtifactValue × BTreeMap String ArtifactValue)}
  {Holds : RuntimeFieldArtifact → Option ArtifactValue → ArtifactValue → Prop}
  {fields : List RuntimeFieldArtifact}

/-- one field written, and taken from what is left -/
def takeField (step : BTreeMap String ArtifactValue → RuntimeFieldArtifact →
      Except ε (ArtifactValue × BTreeMap String ArtifactValue))
    (state : BTreeMap String ArtifactValue × BTreeMap String ArtifactValue)
    (field : RuntimeFieldArtifact) :
    Except ε (BTreeMap String ArtifactValue × BTreeMap String ArtifactValue) := do
  let (value, rest) ← step state.2 field
  pure (state.1.insert field.name value, rest)

/-- what is written and what is left after some fields -/
structure Taken (Holds : RuntimeFieldArtifact → Option ArtifactValue → ArtifactValue → Prop)
    (fields : List RuntimeFieldArtifact) (before after : BTreeMap String ArtifactValue ×
      BTreeMap String ArtifactValue) : Prop where
  written : ∀ field ∈ fields, ∃ value, Holds field (before.2.get field.name) value ∧
    after.1.get field.name = some value
  only : ∀ key, key ∉ fields.map (·.name) → after.1.get key = before.1.get key
  left : ∀ key, after.2.get key = if key ∈ fields.map (·.name) then none else before.2.get key

variable (hstep : ∀ rest field value rest', step rest field = .ok (value, rest') ↔
  Holds field (rest.get field.name) value ∧ rest' = rest.erase field.name)
include hstep

/-- a run over distinct fields takes each of them -/
theorem foldlM_takeField_ok (hnodup : (fields.map (·.name)).Nodup)
    {before after : BTreeMap String ArtifactValue × BTreeMap String ArtifactValue}
    (h : fields.foldlM (takeField step) before = .ok after) : Taken Holds fields before after := by
  induction fields generalizing before with
  | nil =>
    obtain rfl := pure_eq_ok.mp h
    exact ⟨fun _ h => absurd h List.not_mem_nil, fun _ _ => rfl, fun _ => rfl⟩
  | cons field fields ih =>
    rw [List.map_cons, List.nodup_cons] at hnodup
    rw [List.foldlM_cons, bind_eq_ok] at h
    obtain ⟨mid, hmid, h⟩ := h
    obtain ⟨⟨value, rest⟩, hvalue, hmid⟩ := bind_eq_ok.mp hmid
    obtain rfl := pure_eq_ok.mp hmid
    obtain ⟨hholds, rfl⟩ := (hstep _ _ _ _).mp hvalue
    obtain ⟨hwritten, honly, hleft⟩ := ih hnodup.2 h
    refine ⟨fun other hother => ?_, fun key hkey => ?_, fun key => ?_⟩
    · obtain rfl | hother := List.mem_cons.mp hother
      · refine ⟨value, hholds, ?_⟩
        rw [honly _ hnodup.1]
        exact BTreeMap.get_insert_self _ _ _
      · have hne : other.name ≠ field.name := fun heq =>
          hnodup.1 (heq ▸ List.mem_map_of_mem hother)
        obtain ⟨found, hfound, hget⟩ := hwritten other hother
        refine ⟨found, ?_, hget⟩
        dsimp only at hfound
        rwa [BTreeMap.get_erase, if_neg hne] at hfound
    · rw [List.map_cons, List.mem_cons, not_or] at hkey
      rw [honly key hkey.2]
      exact BTreeMap.get_insert_of_ne hkey.1 _ _
    · rw [hleft]
      dsimp only
      rw [BTreeMap.get_erase, List.map_cons]
      by_cases hkey : key = field.name
      · rw [if_pos hkey, if_pos (List.mem_cons.mpr (.inl hkey)), ite_self]
      · rw [if_neg hkey]
        refine if_congr ?_ rfl rfl
        rw [List.mem_cons, or_iff_right hkey]

theorem exists_foldlM_takeField (hnodup : (fields.map (·.name)).Nodup)
    {before : BTreeMap String ArtifactValue × BTreeMap String ArtifactValue}
    (h : ∀ field ∈ fields, ∃ value, Holds field (before.2.get field.name) value) :
    ∃ after, fields.foldlM (takeField step) before = .ok after := by
  induction fields generalizing before with
  | nil => exact ⟨before, rfl⟩
  | cons field fields ih =>
    rw [List.map_cons, List.nodup_cons] at hnodup
    obtain ⟨⟨value, hvalue⟩, hrest⟩ := List.forall_mem_cons.mp h
    have htake : takeField step before field =
        .ok (before.1.insert field.name value, before.2.erase field.name) := by
      unfold takeField
      rw [(hstep _ _ value _).mpr ⟨hvalue, rfl⟩]
      rfl
    rw [List.foldlM_cons, htake]
    refine ih hnodup.2 fun other hother => ?_
    have hne : other.name ≠ field.name := fun heq => hnodup.1 (heq ▸ List.mem_map_of_mem hother)
    obtain ⟨found, hfound⟩ := hrest other hother
    refine ⟨found, ?_⟩
    dsimp only
    rwa [BTreeMap.get_erase, if_neg hne]

end

/-! ## one field -/

/-- an object with the fields of a state, which encodes as `payload` -/
def EncodesAs (crates : RuntimeCrates) (artifact : Artifact) (contract : SilContractArtifact)
    (memoryState : String) (value : ArtifactValue) (payload : Bytes) : Prop :=
  ∃ fields memory, value = .object fields ∧ stateArtifact artifact memoryState = .ok memory ∧
    (∀ field ∈ memory.fields, field.name ∈ fields.map Prod.fst) ∧
    crates.encodeStructPayload artifact.silAbi contract memoryState fields = .ok payload

/-- the value of a field: the commitment of its role, the digest of its object, or what its author
gives -/
def FieldValue (crates : RuntimeCrates) (artifact : Artifact) (contractName : String)
    (contract : SilContractArtifact) (actorState : String)
    (role : Option RuntimeFieldRolePlanArtifact) (fieldName : String)
    (given : Option ArtifactValue) (value : ArtifactValue) : Prop :=
  match role with
  | some fieldRole => given = none ∧ ∃ runtimePlan commitment,
      artifact.argent.templatePlan.runtimeStatePlan contractName = some runtimePlan ∧
      fixedRuntimeContextValue crates.toHashes artifact.argent.templatePlan.lookup runtimePlan
        fieldRole = .ok commitment ∧ value = .bytes commitment
  | none =>
    match stateExpansionMemoryForField artifact actorState fieldName with
    | some memoryState => ∃ object payload, given = some object ∧
        EncodesAs crates artifact contract memoryState object payload ∧
        value = .bytes (crates.blake3 payload).bytes
    | none => given = some value

section
variable {crates : RuntimeCrates} {artifact : Artifact} {contractName : String}
  {contract : SilContractArtifact} {actorState : String}

theorem stateExpansionPreimagePayload_ok {digestField memoryState : String}
    {sourceState rest : BTreeMap String ArtifactValue} {payload : Bytes} :
    stateExpansionPreimagePayload crates artifact contractName contract digestField memoryState
        sourceState = .ok (payload, rest) ↔
      (∃ object, sourceState.get digestField = some object ∧
        EncodesAs crates artifact contract memoryState object payload) ∧
      rest = sourceState.erase digestField := by
  unfold stateExpansionPreimagePayload
  dsimp only
  rw [bind_eq_ok]
  constructor
  · rintro ⟨memory, hmemory, h⟩
    cases hget : sourceState.get digestField with
    | none =>
      rw [hget] at h
      cases h
    | some object =>
      rw [hget] at h
      cases object with
      | object fields =>
        obtain ⟨hfields, h⟩ := check_eq_ok.mp h
        obtain ⟨found, hfound, h⟩ := bind_eq_ok.mp h
        obtain ⟨rfl, rfl⟩ := Prod.mk.inj (pure_eq_ok.mp h)
        refine ⟨⟨_, rfl, fields, memory, rfl, hmemory, fun field hfield => ?_,
          orFail_eq_ok.mp hfound⟩, rfl⟩
        have hcheck := forM_ok_of_mem hfields hfield
        rwa [rejectIf_eq_ok, not_not] at hcheck
      | _ => cases h
  · rintro ⟨⟨object, hget, fields, memory, rfl, hmemory, hfields, hpayload⟩, rfl⟩
    refine ⟨memory, hmemory, ?_⟩
    rw [hget]
    refine check_eq_ok.mpr ⟨forM_eq_ok.mpr fun field hfield => ?_, ?_⟩
    · rw [rejectIf_eq_ok, not_not]
      exact hfields field hfield
    · exact bind_eq_ok.mpr ⟨payload, orFail_eq_ok.mpr hpayload, rfl⟩

theorem runtimeFieldValue_ok {roleByField : BTreeMap String RuntimeFieldRolePlanArtifact}
    (rest : BTreeMap String ArtifactValue) (field : RuntimeFieldArtifact) (value : ArtifactValue)
    (rest' : BTreeMap String ArtifactValue) :
    runtimeFieldValue crates artifact contractName contract actorState roleByField rest field =
        .ok (value, rest') ↔
      FieldValue crates artifact contractName contract actorState (roleByField.get field.name)
        field.name (rest.get field.name) value ∧ rest' = rest.erase field.name := by
  unfold runtimeFieldValue FieldValue
  cases roleByField.get field.name with
  | some fieldRole =>
    dsimp only
    rw [check_eq_ok, rejectIf_eq_ok, Bool.not_eq_true]
    unfold BTreeMap.contains
    rw [Option.isSome_eq_false_iff, Option.isNone_iff_eq_none]
    constructor
    · rintro ⟨hnone, h⟩
      obtain ⟨runtimePlan, hplan, h⟩ := bind_eq_ok.mp h
      obtain ⟨commitment, hcommitment, h⟩ := bind_eq_ok.mp h
      obtain ⟨rfl, rfl⟩ := Prod.mk.inj (pure_eq_ok.mp h)
      exact ⟨⟨hnone, runtimePlan, commitment, expect_eq_ok.mp hplan, orFail_eq_ok.mp hcommitment,
        rfl⟩, (erase_of_get_eq_none hnone).symm⟩
    · rintro ⟨⟨hnone, runtimePlan, commitment, hplan, hcommitment, rfl⟩, rfl⟩
      refine ⟨hnone, bind_eq_ok.mpr ⟨runtimePlan, expect_eq_ok.mpr hplan, bind_eq_ok.mpr
        ⟨commitment, orFail_eq_ok.mpr hcommitment, ?_⟩⟩⟩
      rw [erase_of_get_eq_none hnone]
      rfl
  | none =>
    dsimp only
    cases stateExpansionMemoryForField artifact actorState field.name with
    | some memoryState =>
      dsimp only
      rw [bind_eq_ok]
      constructor
      · rintro ⟨⟨payload, left⟩, hpayload, h⟩
        obtain ⟨rfl, rfl⟩ := Prod.mk.inj (pure_eq_ok.mp h)
        rw [stateExpansionPreimagePayload_ok] at hpayload
        obtain ⟨⟨object, hobject, hencodes⟩, rfl⟩ := hpayload
        exact ⟨⟨object, payload, hobject, hencodes, rfl⟩, rfl⟩
      · rintro ⟨⟨object, payload, hobject, hencodes, rfl⟩, rfl⟩
        refine ⟨(payload, rest.erase field.name), ?_, rfl⟩
        rw [stateExpansionPreimagePayload_ok]
        exact ⟨⟨object, hobject, hencodes⟩, rfl⟩
    | none =>
      dsimp only
      rw [bind_eq_ok]
      constructor
      · rintro ⟨found, hfound, h⟩
        obtain ⟨rfl, rfl⟩ := Prod.mk.inj (pure_eq_ok.mp h)
        exact ⟨okOr_eq_ok.mp hfound, rfl⟩
      · rintro ⟨hget, rfl⟩
        exact ⟨value, okOr_eq_ok.mpr hget, rfl⟩

end

/-! ## the roles of a plan -/

/-- the fields that the compiler owns -/
def generatedFields (artifact : Artifact) (contractName : String) : List String :=
  (fieldRoles (artifact.argent.templatePlan.runtimeStatePlan contractName)).map (·.name)

/-- the plan of a runtime state fits the contract, under the state of its actor -/
structure PlanFits (contract : SilContractArtifact) (actorState : String)
    (runtimePlan : RuntimeStatePlanArtifact) : Prop where
  source_eq : runtimePlan.source = actorState
  nodup : (runtimePlan.fieldRoles.map (·.name)).Nodup
  known : ∀ role ∈ runtimePlan.fieldRoles, role.name ∈ contract.runtimeState.fields.map (·.name)

theorem checkRuntimeState_ok {artifact : Artifact} {states : BTreeMap String String}
    {runtimePlan : RuntimeStatePlanArtifact}
    (h : checkRuntimeState artifact states runtimePlan = .ok ⟨⟩) :
    ∃ contract actorState, artifact.silAbi.contract runtimePlan.contract = some contract ∧
      states.get runtimePlan.contract = some actorState ∧
      PlanFits contract actorState runtimePlan := by
  obtain ⟨contract, hcontract, h⟩ := bind_eq_ok.mp h
  obtain ⟨actorState, hstate, h⟩ := bind_eq_ok.mp h
  obtain ⟨hsource, h⟩ := check_eq_ok.mp h
  obtain ⟨seen, hroles, -⟩ := bind_eq_ok.mp h
  rw [rejectIf_eq_ok, not_not] at hsource
  have hfold : ((runtimePlan.fieldRoles.map (·.name)).Nodup ∧
      ∀ role ∈ runtimePlan.fieldRoles, role.name ∈ contract.runtimeState.fields.map (·.name)) ∧
      ∀ name, name ∈ seen ↔ name ∈ runtimePlan.fieldRoles.map (·.name) := by
    refine foldlM_ok (fun (done : List RuntimeFieldRolePlanArtifact) (seen : BTreeSet String) =>
      ((done.map (·.name)).Nodup ∧ ∀ role ∈ done,
        role.name ∈ contract.runtimeState.fields.map (·.name)) ∧
        ∀ name, name ∈ seen ↔ name ∈ done.map (·.name)) hroles
      ⟨⟨List.nodup_nil, fun _ h => absurd h List.not_mem_nil⟩, by simp⟩ ?_
    rintro done seen role seen' - ⟨⟨hnodup, hknown⟩, hseen⟩ hstep
    obtain ⟨hnew, hstep⟩ := check_eq_ok.mp hstep
    obtain ⟨hfield, hstep⟩ := check_eq_ok.mp hstep
    obtain rfl := pure_eq_ok.mp hstep
    rw [rejectIf_eq_ok, hseen] at hnew
    rw [rejectIf_eq_ok, Bool.not_eq_false] at hfield
    rw [List.map_append, List.map_singleton]
    refine ⟨⟨?_, ?_⟩, fun name => ?_⟩
    · refine List.nodup_append.mpr ⟨hnodup, List.nodup_singleton _, ?_⟩
      rintro name hname other hother rfl
      exact hnew (List.mem_singleton.mp hother ▸ hname)
    · intro other hother
      obtain hother | hother := List.mem_append.mp hother
      · exact hknown other hother
      · obtain ⟨field, hget⟩ := Option.isSome_iff_exists.mp hfield
        obtain ⟨found, hfound, hpair⟩ := List.mem_map.mp (BTreeMap.mem_of_get_ofList hget)
        rw [List.mem_singleton.mp hother, ← (Prod.mk.inj hpair).1]
        exact List.mem_map_of_mem hfound
    · rw [BTreeSet.mem_insert, hseen, List.mem_append, List.mem_singleton, or_comm]
  exact ⟨contract, actorState, okOr_eq_ok.mp hcontract, okOr_eq_ok.mp hstate, hsource.symm ▸ rfl,
    hfold.1.1, hfold.1.2⟩

section
variable {artifact : Artifact} {contractName : String} {contract : SilContractArtifact}
  {actorState : String}

theorem exists_foldlM_roles {roles : List RuntimeFieldRolePlanArtifact}
    {before : BTreeMap String RuntimeFieldRolePlanArtifact} (hnodup : (roles.map (·.name)).Nodup)
    (hknown : ∀ role ∈ roles, role.name ∈ contract.runtimeState.fields.map (·.name))
    (hnew : ∀ role ∈ roles, before.get role.name = none) :
    ∃ after, roles.foldlM (fun (roleByField : BTreeMap String RuntimeFieldRolePlanArtifact)
        fieldRole => do
        rejectIf (fieldRole.name ∉ contract.runtimeState.fields.map RuntimeFieldArtifact.name)
          (runtimeStatePlanMismatch contractName ("field role `" ++ fieldRole.name ++
            "` does not match any Sil ABI runtime field"))
        rejectIf (roleByField.contains fieldRole.name = true)
          (runtimeStatePlanMismatch contractName
            ("field role `" ++ fieldRole.name ++ "` is duplicated"))
        pure (roleByField.insert fieldRole.name fieldRole)) before =
          (.ok after : BuilderResult (BTreeMap String RuntimeFieldRolePlanArtifact)) ∧
      (∀ role ∈ roles, after.get role.name = some role) ∧
      ∀ key, key ∉ roles.map (·.name) → after.get key = before.get key := by
  induction roles generalizing before with
  | nil => exact ⟨before, rfl, fun _ h => absurd h List.not_mem_nil, fun _ _ => rfl⟩
  | cons role roles ih =>
    rw [List.map_cons, List.nodup_cons] at hnodup
    obtain ⟨hrole, hknown⟩ := List.forall_mem_cons.mp hknown
    obtain ⟨hfresh, hnew⟩ := List.forall_mem_cons.mp hnew
    have hnames : ∀ other ∈ roles, other.name ≠ role.name := fun other hother heq =>
      hnodup.1 (heq ▸ List.mem_map_of_mem hother)
    have hrest : ∀ other ∈ roles, (before.insert role.name role).get other.name = none := by
      intro other hother
      rw [BTreeMap.get_insert_of_ne (hnames other hother), hnew other hother]
    obtain ⟨after, hafter, hroles, hothers⟩ := ih hnodup.2 hknown hrest
    refine ⟨after, ?_, fun other hother => ?_, fun key hkey => ?_⟩
    · rw [List.foldlM_cons, bind_eq_ok]
      refine ⟨before.insert role.name role, ?_, hafter⟩
      refine check_eq_ok.mpr ⟨rejectIf_eq_ok.mpr fun hne => hne hrole,
        check_eq_ok.mpr ⟨rejectIf_eq_ok.mpr ?_, rfl⟩⟩
      unfold BTreeMap.contains
      rw [hfresh]
      exact Bool.false_ne_true
    · obtain rfl | hother := List.mem_cons.mp hother
      · rw [hothers _ hnodup.1]
        exact BTreeMap.get_insert_self _ _ _
      · exact hroles other hother
    · rw [List.map_cons, List.mem_cons, not_or] at hkey
      rw [hothers key hkey.2]
      exact BTreeMap.get_insert_of_ne hkey.1 _ _

theorem exists_rolesByField (hfits : ∀ runtimePlan,
      artifact.argent.templatePlan.runtimeStatePlan contractName = some runtimePlan →
      PlanFits contract actorState runtimePlan) :
    ∃ roleByField, rolesByField artifact contractName contract actorState = .ok roleByField ∧
      (∀ role ∈ fieldRoles (artifact.argent.templatePlan.runtimeStatePlan contractName),
        roleByField.get role.name = some role) ∧
      ∀ key, key ∉ generatedFields artifact contractName → roleByField.get key = none := by
  unfold rolesByField generatedFields
  cases hplan : artifact.argent.templatePlan.runtimeStatePlan contractName with
  | none => exact ⟨∅, rfl, fun _ h => absurd h List.not_mem_nil, fun _ _ => rfl⟩
  | some runtimePlan =>
    obtain ⟨hsource, hnodup, hknown⟩ := hfits runtimePlan hplan
    obtain ⟨after, hafter, hroles, hothers⟩ := @exists_foldlM_roles contractName contract _ ∅
      hnodup hknown fun _ _ => rfl
    exact ⟨after, check_eq_ok.mpr ⟨rejectIf_eq_ok.mpr fun hne => hne hsource, hafter⟩, hroles,
      hothers⟩

end

/-! ## states of represented actors -/

/-- what the check of an artifact takes from its compilers: the actor is listed once and has a
receipt, and its contract lists each of its fields once -/
structure Represented (artifact : Artifact) (actor : ActorArtifact)
    (contract : SilContractArtifact) : Prop where
  receipt : ∃ template ∈ artifact.argent.templatePlan.templates, template.actor = actor.name
  single : ∀ other ∈ artifact.argent.actors, other.name = actor.name → other = actor
  fields : (contract.runtimeState.fields.map (·.name)).Nodup

/-- a state map gives the fields that the compiler does not own, and an object for each expanded
one -/
structure Authored (crates : RuntimeCrates) (artifact : Artifact) (actor : ActorArtifact)
    (contract : SilContractArtifact) (sourceState : BTreeMap String ArtifactValue) : Prop where
  keys : ∀ key, sourceState.contains key = true ↔
    key ∈ contract.runtimeState.fields.map (·.name) ∧ key ∉ generatedFields artifact actor.name
  objects : ∀ field ∈ contract.runtimeState.fields,
    field.name ∉ generatedFields artifact actor.name → ∀ memoryState,
      stateExpansionMemoryForField artifact actor.state field.name = some memoryState →
      ∃ object payload, sourceState.get field.name = some object ∧
        EncodesAs crates artifact contract memoryState object payload

/-- the physical state that is built from a state map -/
structure StateBuilt (crates : RuntimeCrates) (artifact : Artifact) (actor : ActorArtifact)
    (contract : SilContractArtifact) (sourceState values : BTreeMap String ArtifactValue) :
    Prop where
  keys : ∀ key, values.contains key = true ↔ key ∈ contract.runtimeState.fields.map (·.name)
  /-- a generated field is the commitment of its role, whatever the author writes -/
  generated : ∀ runtimePlan,
    artifact.argent.templatePlan.runtimeStatePlan actor.name = some runtimePlan →
    ∀ role ∈ runtimePlan.fieldRoles, sourceState.contains role.name = false ∧ ∃ commitment,
      fixedRuntimeContextValue crates.toHashes artifact.argent.templatePlan.lookup runtimePlan
        role = .ok commitment ∧ values.get role.name = some (.bytes commitment)
  /-- a digest is the hash of the payload that opens it -/
  expanded : ∀ field ∈ contract.runtimeState.fields,
    field.name ∉ generatedFields artifact actor.name → ∀ memoryState,
      stateExpansionMemoryForField artifact actor.state field.name = some memoryState →
      ∀ hidden : HiddenParamArtifact,
        hidden.subject = .stateExpansion actor.state field.name memoryState →
        ∃ payload, stateExpansionPreimageArg crates artifact actor.name contract hidden
            sourceState = .ok (.bytes payload) ∧
          values.get field.name = some (.bytes (crates.blake3 payload).bytes)
  authored : ∀ field ∈ contract.runtimeState.fields,
    field.name ∉ generatedFields artifact actor.name →
      stateExpansionMemoryForField artifact actor.state field.name = none →
      values.get field.name = sourceState.get field.name

section
variable {crates : RuntimeCrates} {artifact : Artifact} {actor : ActorArtifact}
  {contract : SilContractArtifact}

theorem Represented.actorNamed (h : Represented artifact actor contract)
    (hactor : actor ∈ artifact.argent.actors) : artifact.actorNamed actor.name = some actor := by
  unfold Artifact.actorNamed
  cases hfind : artifact.argent.actors.find? fun other => other.name == actor.name with
  | none => exact absurd (beq_self_eq_true actor.name) (List.find?_eq_none.mp hfind actor hactor)
  | some found =>
    have hname := List.find?_some (p := fun other : ActorArtifact => other.name == actor.name) hfind
    rw [h.single found (List.mem_of_find?_eq_some hfind) (eq_of_beq hname)]

/-- a checked plan fits its represented actor, and derives every commitment -/
theorem Represented.planFits (h : Represented artifact actor contract)
    (hcheck : artifact.checkConsistency crates.toCrates = .ok ⟨⟩)
    (hcontract : artifact.silAbi.contract actor.name = some contract) {runtimePlan}
    (hplan : artifact.argent.templatePlan.runtimeStatePlan actor.name = some runtimePlan) :
    PlanFits contract actor.state runtimePlan ∧
      ∀ role ∈ runtimePlan.fieldRoles, ∃ commitment,
        fixedRuntimeContextValue crates.toHashes artifact.argent.templatePlan.lookup runtimePlan
          role = .ok commitment := by
  obtain ⟨index, hchecked⟩ := checkConsistency_checked (checkConsistency_ok hcheck).plan
  have hname : runtimePlan.contract = actor.name := eq_of_beq (List.find?_some
    (p := fun other : RuntimeStatePlanArtifact => other.contract == actor.name) hplan)
  obtain ⟨found, actorState, hfound, hstate, hfits⟩ := checkRuntimeState_ok
    (hchecked.runtimeState_ok runtimePlan (List.mem_of_find?_eq_some hplan))
  rw [hname] at hfound hstate
  obtain rfl := Option.some.inj (hfound.symm.trans hcontract)
  obtain ⟨other, hother, hpair⟩ := List.mem_map.mp (BTreeMap.mem_of_get_ofList hstate)
  obtain ⟨hsame, hstate⟩ := Prod.mk.inj hpair
  rw [h.single other hother hsame] at hstate
  refine ⟨hstate ▸ hfits, fun role hrole => ?_⟩
  obtain ⟨template, htemplate, hactor⟩ := h.receipt
  obtain ⟨hcontractName, -⟩ := checkTemplate_ok (hchecked.template_ok template htemplate)
  obtain ⟨_, -, hhandle⟩ := hchecked.handle_ok template htemplate
  obtain ⟨_, _, _, _, _, _, hhandle⟩ := verifyActorTypeHandle_ok hhandle
  rw [← hactor, hcontractName] at hplan
  obtain ⟨commitment, hcommitment, -⟩ := hhandle.committed runtimePlan hplan role hrole
  exact ⟨commitment, hcommitment⟩

/-- a state is built when every field has its value and nothing is left -/
theorem runtimeStateValues_ok (hactor : artifact.actorNamed actor.name = some actor)
    {roleByField : BTreeMap String RuntimeFieldRolePlanArtifact}
    (hroles : rolesByField artifact actor.name contract actor.state = .ok roleByField)
    {sourceState values : BTreeMap String ArtifactValue} :
    runtimeStateValues crates artifact actor.name contract sourceState = .ok values ↔
      ∃ rest, contract.runtimeState.fields.foldlM
          (takeField (runtimeFieldValue crates artifact actor.name contract actor.state roleByField))
          (∅, sourceState) = .ok (values, rest) ∧ ∀ key, rest.get key = none := by
  have hempty : ∀ rest : BTreeMap String ArtifactValue,
      rest.keys.toList = [] ↔ ∀ key, rest.get key = none := by
    intro rest
    rw [List.eq_nil_iff_forall_not_mem]
    refine forall_congr' fun key => ?_
    show key ∉ rest.keys ↔ _
    rw [rest.mem_keys, Bool.not_eq_true, Option.isSome_eq_false_iff, Option.isNone_iff_eq_none]
  have hnamed : actorRefInArtifact artifact actor.name = .ok ⟨artifact, actor⟩ :=
    bind_eq_ok.mpr ⟨actor, okOr_eq_ok.mpr hactor, rfl⟩
  unfold runtimeStateValues
  rw [hnamed]
  show (rolesByField artifact actor.name contract actor.state >>= _) = _ ↔ _
  rw [hroles]
  show (contract.runtimeState.fields.foldlM
    (takeField (runtimeFieldValue crates artifact actor.name contract actor.state roleByField))
    (∅, sourceState) >>= _) = _ ↔ _
  rw [bind_eq_ok]
  constructor
  · rintro ⟨⟨found, rest⟩, hfold, h⟩
    dsimp only at h
    cases hrest : rest.keys.toList with
    | cons extra extras =>
      rw [hrest] at h
      cases h
    | nil =>
      rw [hrest] at h
      obtain rfl := pure_eq_ok.mp h
      exact ⟨rest, hfold, (hempty rest).mp hrest⟩
  · rintro ⟨rest, hfold, hrest⟩
    refine ⟨(values, rest), hfold, ?_⟩
    dsimp only
    rw [(hempty rest).mpr hrest]
    rfl

theorem exists_generatedRole {key : String}
    (h : key ∈ generatedFields artifact actor.name) : ∃ runtimePlan role,
      artifact.argent.templatePlan.runtimeStatePlan actor.name = some runtimePlan ∧
      role ∈ runtimePlan.fieldRoles ∧ role.name = key := by
  obtain ⟨role, hmem, hname⟩ := List.mem_map.mp h
  cases hplan : artifact.argent.templatePlan.runtimeStatePlan actor.name with
  | none =>
    rw [hplan] at hmem
    exact absurd hmem List.not_mem_nil
  | some runtimePlan =>
    rw [hplan] at hmem
    exact ⟨runtimePlan, role, rfl, hmem, hname⟩

/-- the roles by name, as a run over the fields finds them -/
structure RolesFound (artifact : Artifact) (actor : ActorArtifact)
    (roleByField : BTreeMap String RuntimeFieldRolePlanArtifact) : Prop where
  own : ∀ runtimePlan,
    artifact.argent.templatePlan.runtimeStatePlan actor.name = some runtimePlan →
    ∀ role ∈ runtimePlan.fieldRoles, roleByField.get role.name = some role
  other : ∀ key, key ∉ generatedFields artifact actor.name → roleByField.get key = none

/-- a run that leaves nothing of a state map -/
structure TakesAll (crates : RuntimeCrates) (artifact : Artifact) (actor : ActorArtifact)
    (contract : SilContractArtifact) (roleByField : BTreeMap String RuntimeFieldRolePlanArtifact)
    (sourceState values : BTreeMap String ArtifactValue) : Prop where
  written : ∀ field ∈ contract.runtimeState.fields, ∃ value,
    FieldValue crates artifact actor.name contract actor.state (roleByField.get field.name)
      field.name (sourceState.get field.name) value ∧ values.get field.name = some value
  only : ∀ key, key ∉ contract.runtimeState.fields.map (·.name) → values.get key = none
  nothing : ∀ key, key ∉ contract.runtimeState.fields.map (·.name) → sourceState.get key = none

section
variable {roleByField : BTreeMap String RuntimeFieldRolePlanArtifact}
  {sourceState values : BTreeMap String ArtifactValue} (hfound : RolesFound artifact actor roleByField)
  (h : TakesAll crates artifact actor contract roleByField sourceState values)
include hfound h

theorem TakesAll.plain {field : RuntimeFieldArtifact} (hfield : field ∈ contract.runtimeState.fields)
    (hnot : field.name ∉ generatedFields artifact actor.name) : ∃ value,
      FieldValue crates artifact actor.name contract actor.state none field.name
        (sourceState.get field.name) value ∧ values.get field.name = some value := by
  obtain ⟨value, hvalue, hget⟩ := h.written field hfield
  rw [hfound.other _ hnot] at hvalue
  exact ⟨value, hvalue, hget⟩

/-- a generated field comes from the plan alone -/
theorem TakesAll.generated (hfits : ∀ runtimePlan,
      artifact.argent.templatePlan.runtimeStatePlan actor.name = some runtimePlan →
      PlanFits contract actor.state runtimePlan) {runtimePlan : RuntimeStatePlanArtifact}
    (hplan : artifact.argent.templatePlan.runtimeStatePlan actor.name = some runtimePlan)
    {role : RuntimeFieldRolePlanArtifact} (hrole : role ∈ runtimePlan.fieldRoles) :
    sourceState.contains role.name = false ∧ ∃ commitment,
      fixedRuntimeContextValue crates.toHashes artifact.argent.templatePlan.lookup runtimePlan
        role = .ok commitment ∧ values.get role.name = some (.bytes commitment) := by
  obtain ⟨field, hfield, hname⟩ := List.mem_map.mp ((hfits runtimePlan hplan).known role hrole)
  obtain ⟨value, hvalue, hget⟩ := h.written field hfield
  rw [hname] at hvalue hget
  rw [hfound.own runtimePlan hplan role hrole] at hvalue
  obtain ⟨hnone, plan, commitment, hplan', hcommitment, rfl⟩ := hvalue
  obtain rfl := Option.some.inj (hplan.symm.trans hplan')
  refine ⟨?_, commitment, hcommitment, hget⟩
  unfold BTreeMap.contains
  rw [hnone]
  rfl

theorem TakesAll.authored (hfits : ∀ runtimePlan,
      artifact.argent.templatePlan.runtimeStatePlan actor.name = some runtimePlan →
      PlanFits contract actor.state runtimePlan) :
    Authored crates artifact actor contract sourceState := by
  refine ⟨fun key => ⟨fun hkey => ⟨?_, fun hgen => ?_⟩, fun ⟨hkey, hnot⟩ => ?_⟩,
    fun field hfield hnot memoryState hmemory => ?_⟩
  · by_contra hnot
    unfold BTreeMap.contains at hkey
    rw [h.nothing key hnot] at hkey
    cases hkey
  · obtain ⟨runtimePlan, role, hplan, hrole, rfl⟩ := exists_generatedRole hgen
    rw [(h.generated hfound hfits hplan hrole).1] at hkey
    cases hkey
  · obtain ⟨field, hfield, rfl⟩ := List.mem_map.mp hkey
    obtain ⟨value, hvalue, -⟩ := h.plain hfound hfield hnot
    unfold FieldValue at hvalue
    unfold BTreeMap.contains
    cases hmemory : stateExpansionMemoryForField artifact actor.state field.name with
    | none =>
      rw [hmemory] at hvalue
      rw [hvalue]
      rfl
    | some memoryState =>
      rw [hmemory] at hvalue
      obtain ⟨object, payload, hobject, -⟩ := hvalue
      rw [hobject]
      rfl
  · obtain ⟨value, hvalue, -⟩ := h.plain hfound hfield hnot
    unfold FieldValue at hvalue
    rw [hmemory] at hvalue
    obtain ⟨object, payload, hobject, hencodes, -⟩ := hvalue
    exact ⟨object, payload, hobject, hencodes⟩

/-- what was taken makes up the state -/
theorem TakesAll.built (hnamed : artifact.actorNamed actor.name = some actor)
    (hfits : ∀ runtimePlan,
      artifact.argent.templatePlan.runtimeStatePlan actor.name = some runtimePlan →
      PlanFits contract actor.state runtimePlan) :
    StateBuilt crates artifact actor contract sourceState values := by
  refine ⟨fun key => ⟨fun hkey => ?_, fun hkey => ?_⟩, fun runtimePlan hplan role hrole =>
    h.generated hfound hfits hplan hrole,
    fun field hfield hnot memoryState hmemory hidden hsubject => ?_,
    fun field hfield hnot hnone => ?_⟩
  · by_contra hnot
    unfold BTreeMap.contains at hkey
    rw [h.only key hnot] at hkey
    cases hkey
  · obtain ⟨field, hfield, rfl⟩ := List.mem_map.mp hkey
    obtain ⟨value, -, hget⟩ := h.written field hfield
    unfold BTreeMap.contains
    rw [hget]
    rfl
  · obtain ⟨value, hvalue, hget⟩ := h.plain hfound hfield hnot
    unfold FieldValue at hvalue
    rw [hmemory] at hvalue
    obtain ⟨object, payload, hobject, hencodes, rfl⟩ := hvalue
    refine ⟨payload, ?_, hget⟩
    unfold stateExpansionPreimageArg
    rw [hsubject]
    refine bind_eq_ok.mpr ⟨⟨artifact, actor⟩, bind_eq_ok.mpr
      ⟨actor, okOr_eq_ok.mpr hnamed, rfl⟩, check_eq_ok.mpr ⟨rejectIf_eq_ok.mpr fun hne =>
        hne rfl, bind_eq_ok.mpr ⟨(payload, sourceState.erase field.name), ?_, rfl⟩⟩⟩
    rw [stateExpansionPreimagePayload_ok]
    exact ⟨⟨object, hobject, hencodes⟩, rfl⟩
  · obtain ⟨value, hvalue, hget⟩ := h.plain hfound hfield hnot
    unfold FieldValue at hvalue
    rw [hnone] at hvalue
    rw [hget, hvalue]

end

theorem Authored.exists_value {roleByField : BTreeMap String RuntimeFieldRolePlanArtifact}
    {sourceState : BTreeMap String ArtifactValue}
    (h : Authored crates artifact actor contract sourceState)
    (hfound : RolesFound artifact actor roleByField)
    (hderived : ∀ runtimePlan,
      artifact.argent.templatePlan.runtimeStatePlan actor.name = some runtimePlan →
      ∀ role ∈ runtimePlan.fieldRoles, ∃ commitment,
        fixedRuntimeContextValue crates.toHashes artifact.argent.templatePlan.lookup runtimePlan
          role = .ok commitment) {field : RuntimeFieldArtifact}
    (hfield : field ∈ contract.runtimeState.fields) : ∃ value,
      FieldValue crates artifact actor.name contract actor.state (roleByField.get field.name)
        field.name (sourceState.get field.name) value := by
  by_cases hgen : field.name ∈ generatedFields artifact actor.name
  · obtain ⟨runtimePlan, role, hplan, hrole, hname⟩ := exists_generatedRole hgen
    obtain ⟨commitment, hcommitment⟩ := hderived runtimePlan hplan role hrole
    have habsent : sourceState.get field.name = none := by
      by_contra hget
      exact ((h.keys field.name).mp (Option.isSome_iff_ne_none.mpr hget)).2 hgen
    rw [← hname] at habsent ⊢
    rw [hfound.own runtimePlan hplan role hrole]
    exact ⟨_, habsent, runtimePlan, commitment, hplan, hcommitment, rfl⟩
  · have hgiven := (h.keys field.name).mpr ⟨List.mem_map_of_mem hfield, hgen⟩
    rw [hfound.other _ hgen]
    unfold FieldValue
    cases hmemory : stateExpansionMemoryForField artifact actor.state field.name with
    | none => exact Option.isSome_iff_exists.mp hgiven
    | some memoryState =>
      obtain ⟨object, payload, hobject, hencodes⟩ := h.objects field hfield hgen memoryState hmemory
      exact ⟨_, object, payload, hobject, hencodes, rfl⟩

/-- **When states can be built, and what they are then.**  A represented actor of a checked artifact
can be given a state exactly when its author writes the fields that the compiler does not own. -/
theorem runtimeStateValues_built (crates : RuntimeCrates) (artifact : Artifact)
    (hcheck : artifact.checkConsistency crates.toCrates = .ok ⟨⟩) (actor : ActorArtifact)
    (hactor : actor ∈ artifact.argent.actors) (contract : SilContractArtifact)
    (hcontract : artifact.silAbi.contract actor.name = some contract)
    (hrep : Represented artifact actor contract)
    (sourceState : BTreeMap String ArtifactValue) :
    ((∃ values, runtimeStateValues crates artifact actor.name contract sourceState = .ok values) ↔
      Authored crates artifact actor contract sourceState) ∧
    ∀ values, runtimeStateValues crates artifact actor.name contract sourceState = .ok values →
      StateBuilt crates artifact actor contract sourceState values := by
  have hnamed := hrep.actorNamed hactor
  have hfits := fun runtimePlan hplan =>
    (@Represented.planFits crates artifact actor contract hrep hcheck hcontract runtimePlan hplan)
  obtain ⟨roleByField, hroles, hrole, hother⟩ := exists_rolesByField fun runtimePlan hplan =>
    (hfits runtimePlan hplan).1
  have hfound : RolesFound artifact actor roleByField := by
    refine ⟨fun runtimePlan hplan role hmem => hrole role ?_, hother⟩
    rw [hplan]
    exact hmem
  have hok := @runtimeStateValues_ok crates artifact actor contract hnamed roleByField hroles
    sourceState
  have hstep := @runtimeFieldValue_ok crates artifact actor.name contract actor.state roleByField
  have htakes : ∀ {values}, runtimeStateValues crates artifact actor.name contract sourceState =
      .ok values → TakesAll crates artifact actor contract roleByField sourceState values := by
    intro values hvalues
    obtain ⟨rest, hfold, hrest⟩ := hok.mp hvalues
    obtain ⟨hwritten, honly, hleft⟩ := foldlM_takeField_ok hstep hrep.fields hfold
    refine ⟨hwritten, honly, fun key hkey => ?_⟩
    have hkey' := hleft key
    rwa [hrest, if_neg hkey, eq_comm] at hkey'
  refine ⟨⟨fun ⟨_, hvalues⟩ => (htakes hvalues).authored hfound fun runtimePlan hplan =>
    (hfits runtimePlan hplan).1, fun h => ?_⟩, fun _ hvalues => (htakes hvalues).built hfound hnamed
      fun runtimePlan hplan => (hfits runtimePlan hplan).1⟩
  obtain ⟨⟨values, rest⟩, hfold⟩ := @exists_foldlM_takeField _ _ _ contract.runtimeState.fields hstep
    hrep.fields (∅, sourceState) fun field hfield =>
      h.exists_value hfound (fun runtimePlan hplan => (hfits runtimePlan hplan).2) hfield
  refine ⟨values, hok.mpr ⟨rest, hfold, fun key => ?_⟩⟩
  rw [(foldlM_takeField_ok hstep hrep.fields hfold).left]
  split_ifs with hkey
  · rfl
  · by_contra hget
    exact hkey ((h.keys key).mp (Option.isSome_iff_ne_none.mpr hget)).1

end

/-! ## samples -/

def keeperHandleHash : Digest where
  bytes := [11, 79, 228, 41, 16, 80, 78, 245, 52, 213, 163, 126, 182, 44, 6, 63, 246, 27, 79, 145, 40,
    87, 4, 200, 40, 10, 250, 34, 0, 100, 74, 102]
  length_bytes := rfl

def keeperHandle : ActorTemplateArtifact where
  leading := [1, 10, 32] ++ queenHash.bytes
  trailing := [9]
  hash := keeperHandleHash

/-- the hash of a comb of five drops -/
def combHash : Digest where
  bytes := [132, 203, 64, 231, 79, 14, 133, 107, 180, 187, 145, 35, 62, 60, 183, 65, 19, 83, 61, 202,
    120, 167, 79, 54, 245, 158, 218, 164, 24, 149, 201, 70]
  length_bytes := rfl

def packBytes (fields : List (String × ArtifactValue)) : Bytes :=
  fields.flatMap fun field => match field.2 with
    | .byte value => [value]
    | _ => []

def larderCrates : RuntimeCrates :=
  { hiveRuntimeCrates with
    toCrates := pushCrates [([5], combHash)]
      [(([1, 10], [9]), queenHash), ((keeperHandle.leading, [9]), keeperHandleHash)]
    encodeStructPayload := fun _ _ _ fields => .ok (packBytes fields) }

/-- a cell whose store is expanded to a comb -/
def hoardExpansion : StateExpansionArtifact := ⟨"Hoard", "Cell", [⟨"store", "Comb"⟩]⟩

def keeper : ActorArtifact := ⟨"Keeper", "Hoard", ⟨"Keeper"⟩, [], []⟩

def keeperContract : SilContractArtifact :=
  hiveContract 10 (32 :: List.replicate 32 0 ++ [1, 0, 32] ++ List.replicate 32 0) queenHash
    [⟨"own", .fixedBytes 32⟩, ⟨"age", .byte⟩, ⟨"store", .fixedBytes 32⟩] ∅

/-- the compiler owns the first field, the author writes the second and expands the third -/
def larder : Artifact :=
  { Artifact.blank with
    id := hexText (Digest.repeated 0).bytes
    app := "Larder"
    argent := { Artifact.blank.argent with
      templates := [⟨"template/Keeper", "Keeper", "Keeper"⟩]
      templatePlan := { Artifact.blank.argent.templatePlan with
        templates := [hiveReceipt "Keeper" queenHash ["own"] keeperHandle]
        runtimeStates := [⟨"Keeper", "Hoard", [⟨"own", .template "Keeper"⟩]⟩] }
      states := [⟨"Cell", [⟨"age", .byte⟩, ⟨"store", .fixedBytes 32⟩]⟩, ⟨"Comb", [⟨"drops", .byte⟩]⟩]
      stateExpansions := [hoardExpansion]
      actors := [keeper] }
    silAbi := { Artifact.blank.silAbi with
      contracts := BTreeMap.ofList [("Keeper", keeperContract)] } }

theorem larder_isOk : (larder.checkConsistency larderCrates.toCrates).isOk = true := by
  decide +kernel

theorem larder_consistent : larder.checkConsistency larderCrates.toCrates = .ok ⟨⟩ := by
  obtain ⟨_, h⟩ := exists_ok_of_isOk larder_isOk
  exact h

def hoardState : BTreeMap String ArtifactValue :=
  BTreeMap.ofList [("age", .byte 7), ("store", .object [("drops", .byte 5)])]

theorem keeper_represented : Represented larder keeper keeperContract where
  receipt := ⟨_, List.mem_cons_self, rfl⟩
  single _ hother _ := List.mem_singleton.mp hother
  fields := by decide

/-- the keeper of the larder: its own template, an age and the hash of a comb -/
theorem runtimeStateValues_built_keeper :
    Authored larderCrates larder keeper keeperContract hoardState ∧
    ∃ values, runtimeStateValues larderCrates larder "Keeper" keeperContract hoardState =
        .ok values ∧
      StateBuilt larderCrates larder keeper keeperContract hoardState values := by
  obtain ⟨hbuilds, hstate⟩ := runtimeStateValues_built larderCrates larder larder_consistent keeper
    List.mem_cons_self keeperContract rfl keeper_represented hoardState
  have hisOk : (runtimeStateValues larderCrates larder "Keeper" keeperContract hoardState).isOk =
      true := by decide +kernel
  obtain ⟨values, hvalues⟩ := exists_ok_of_isOk hisOk
  exact ⟨hbuilds.mp ⟨values, hvalues⟩, values, hvalues, hstate values hvalues⟩

def orphanContract : SilContractArtifact :=
  hiveContract 10 (32 :: List.replicate 32 0) queenHash [⟨"parent", .fixedBytes 32⟩] ∅

/-- an actor without a receipt, whose only field is the template of an unknown actor -/
def orphanage : Artifact :=
  { Artifact.blank with
    id := hexText (Digest.repeated 0).bytes
    app := "Orphanage"
    argent := { Artifact.blank.argent with
      templatePlan := { Artifact.blank.argent.templatePlan with
        runtimeStates := [⟨"Orphan", "Cell", [⟨"parent", .template "Nobody"⟩]⟩] }
      actors := [hiveActor "Orphan" []] }
    silAbi := { Artifact.blank.silAbi with
      contracts := BTreeMap.ofList [("Orphan", orphanContract)] } }

theorem orphanage_isOk : (orphanage.checkConsistency hiveRuntimeCrates.toCrates).isOk = true := by
  decide +kernel

/-- the author of its state has nothing to write -/
theorem orphan_authored :
    Authored hiveRuntimeCrates orphanage (hiveActor "Orphan" []) orphanContract ∅ := by
  have hown : ∀ field ∈ orphanContract.runtimeState.fields,
      field.name ∈ generatedFields orphanage "Orphan" := by
    intro field hfield
    obtain rfl := List.mem_singleton.mp hfield
    exact List.mem_singleton_self _
  refine ⟨fun key => ⟨fun h => (by cases h), ?_⟩, fun field hfield hnot => ?_⟩
  · rintro ⟨hkey, hnot⟩
    obtain ⟨field, hfield, rfl⟩ := List.mem_map.mp hkey
    exact absurd (hown field hfield) hnot
  · exact absurd (hown field hfield) hnot

/-- the check does not promise that the fields of an actor without a receipt can be derived -/
theorem orphan_has_no_state :
    ¬ ∀ (crates : RuntimeCrates) (artifact : Artifact),
      artifact.checkConsistency crates.toCrates = .ok ⟨⟩ →
      ∀ actor ∈ artifact.argent.actors, ∀ contract,
        artifact.silAbi.contract actor.name = some contract →
        ∀ sourceState, ((∃ values,
            runtimeStateValues crates artifact actor.name contract sourceState = .ok values) ↔
          Authored crates artifact actor contract sourceState) := by
  intro h
  obtain ⟨_, hcheck⟩ := exists_ok_of_isOk orphanage_isOk
  obtain ⟨values, hvalues⟩ := (h hiveRuntimeCrates orphanage hcheck (hiveActor "Orphan" [])
    List.mem_cons_self orphanContract rfl ∅).mpr orphan_authored
  have hfails : (runtimeStateValues hiveRuntimeCrates orphanage "Orphan" orphanContract ∅).isOk =
      false := by decide +kernel
  rw [show (hiveActor "Orphan" []).name = "Orphan" from rfl] at hvalues
  rw [hvalues] at hfails
  cases hfails

end Argent.Runtime
