import Argent.Codegen.AbiMerge

/-!
# The merge does not depend on the order

* `canonicalize_ok`      what becomes of the structs of one actor;
* `mergeSilAbiArtifacts_ok`      one merge, as conditions and a result;
* `Consistent`, `Joined`      what a run of merges checks and makes, without an order;
* `silAbiArtifact_spec`      **the same ABI in every order, with every contract and struct of it**.
-/

set_option linter.unusedSectionVars false

namespace Argent.Codegen.AbiMerge
open Argent.Artifacts Argent.Model Argent.Fallible BTreeMap

/-! ## references to `State` -/

section
variable {canonical : String}

theorem replaceStateTypeRef_of_not {ty : TypeArtifact} (h : typeReferencesState ty = false) :
    replaceStateTypeRef canonical ty = ty := by
  induction ty with
  | struct name =>
    have hname : name ≠ "State" := of_decide_eq_false h
    exact congrArg TypeArtifact.struct (if_neg hname)
  | fixedArray item len ih => exact congrArg (TypeArtifact.fixedArray · len) (ih h)
  | dynamicArray item ih => exact congrArg TypeArtifact.dynamicArray (ih h)
  | int | temporal | bool | byte | bytes | text | pubkey | sig | datasig | fixedBytes => rfl

theorem not_typeReferencesState_replace (hcanonical : canonical ≠ "State") (ty : TypeArtifact) :
    typeReferencesState (replaceStateTypeRef canonical ty) = false := by
  induction ty with
  | struct name =>
    show decide ((if name = "State" then canonical else name) = "State") = false
    apply decide_eq_false
    by_cases hname : name = "State"
    · rw [if_pos hname]
      exact hcanonical
    · rw [if_neg hname]
      exact hname
  | fixedArray item len ih => exact ih
  | dynamicArray item ih => exact ih
  | int | temporal | bool | byte | bytes | text | pubkey | sig | datasig | fixedBytes => rfl

theorem replaceStateRefs_of_not {struct : StructArtifact}
    (h : structReferencesState struct = false) : replaceStateRefs canonical struct = struct := by
  obtain ⟨fields⟩ := struct
  have hfields : ∀ field ∈ fields, typeReferencesState field.ty = false := by
    intro field hmem
    have hany := List.any_eq_false.mp h field hmem
    exact Bool.eq_false_iff.mpr hany
  show StructArtifact.mk _ = _
  congr 1
  conv_rhs => rw [← List.map_id fields]
  apply List.map_congr_left
  intro field hmem
  show RuntimeFieldArtifact.mk _ _ = field
  rw [replaceStateTypeRef_of_not (hfields field hmem)]

theorem not_structReferencesState_replace (hcanonical : canonical ≠ "State")
    (struct : StructArtifact) : structReferencesState (replaceStateRefs canonical struct) = false := by
  apply List.any_eq_false.mpr
  intro field hmem
  obtain ⟨source, -, rfl⟩ := List.mem_map.mp hmem
  rw [not_typeReferencesState_replace hcanonical]
  exact Bool.false_ne_true

end

/-! ## the structs of one actor -/

section
variable {model : AbiModel} {id : DeclId} {actor : ActorDecl} {direct artifact : VersionedAbi}

/-- The canonical artifact of an actor has its contracts, and its structs with references to the
canonical struct of its state. -/
structure Canonical (model : AbiModel) (id : DeclId) (actor : ActorDecl)
    (direct artifact : VersionedAbi) : Prop where
  schemaVersion : artifact.schemaVersion = direct.schemaVersion
  compilerVersion : artifact.compilerVersion = direct.compilerVersion
  contracts : artifact.contracts = direct.contracts
  plain : ∀ name struct, direct.structs.get name = some struct →
    structReferencesState struct = false → artifact.structs.get name = some struct
  replaced : ∀ name struct, direct.structs.get name = some struct →
    structReferencesState struct = true → ∃ source contract, model.actorState id = .ok source ∧
      direct.contracts.get actor.name = some contract ∧
      artifact.structs.get name =
        some (replaceStateRefs (model.states.asStr source) struct) ∧
      artifact.structs.get (model.states.asStr source) =
        some (replaceStateRefs (model.states.asStr source) (authoredState contract))
  clean : ∀ name struct, artifact.structs.get name = some struct →
    structReferencesState struct = false

theorem canonicalize_ok (h : canonicalizeSilAbiStructStateRefs model id actor direct = .ok artifact) :
    Canonical model id actor direct artifact := by
  unfold canonicalizeSilAbiStructStateRefs at h
  by_cases hany : (direct.structs.entries.any fun entry => structReferencesState entry.2) = true
  · rw [if_pos hany] at h
    obtain ⟨source, hsource, h⟩ := bind_eq_ok.mp h
    obtain ⟨lowering, -, h⟩ := bind_eq_ok.mp h
    obtain ⟨representation, -, h⟩ := bind_eq_ok.mp h
    obtain ⟨-, h⟩ := check_eq_ok.mp h
    obtain ⟨contract, hcontract, h⟩ := bind_eq_ok.mp h
    rw [okOr_eq_ok] at hcontract
    obtain ⟨hexisting, h⟩ := check_eq_ok.mp h
    rw [rejectIf_eq_ok] at hexisting
    cases h
    -- a struct that has the canonical name already is the authored state
    have hget : ∀ name struct, direct.structs.get name = some struct →
        (direct.structs.insert (model.states.asStr source) (authoredState contract)).get name =
          some struct := by
      intro name struct hstruct
      by_cases hname : name = model.states.asStr source
      · rw [hname] at hstruct ⊢
        rw [hstruct] at hexisting
        have heq : struct = authoredState contract := by
          by_contra hne
          exact hexisting (decide_eq_true hne)
        rw [get_insert_self, heq]
      · rw [get_insert_of_ne hname, hstruct]
    refine ⟨rfl, rfl, rfl, fun name struct hstruct hplain => ?_, fun name struct hstruct _ => ?_,
      fun name struct hstruct => ?_⟩
    · show (BTreeMap.mapValues _ _).get name = _
      rw [get_mapValues, hget name struct hstruct, Option.map_some, replaceStateRefs_of_not hplain]
    · refine ⟨source, contract, hsource, hcontract, ?_, ?_⟩
      · show (BTreeMap.mapValues _ _).get name = _
        rw [get_mapValues, hget name struct hstruct, Option.map_some]
      · show (BTreeMap.mapValues _ _).get _ = _
        rw [get_mapValues, get_insert_self, Option.map_some]
    · replace hstruct : (BTreeMap.mapValues _ _).get name = some struct := hstruct
      rw [get_mapValues] at hstruct
      obtain ⟨authored, -, rfl⟩ := Option.map_eq_some_iff.mp hstruct
      exact not_structReferencesState_replace (model.asStr_ne_state id source hsource) authored
  · rw [if_neg hany] at h
    cases h
    have hclean : ∀ name struct, direct.structs.get name = some struct →
        structReferencesState struct = false := by
      intro name struct hstruct
      apply Bool.eq_false_iff.mpr
      intro href
      exact hany (List.any_eq_true.mpr ⟨(name, struct), mem_entries.mpr hstruct, href⟩)
    refine ⟨rfl, rfl, rfl, fun name struct hstruct _ => hstruct, fun name struct hstruct href => ?_,
      hclean⟩
    rw [hclean name struct hstruct] at href
    cases href

end

/-! ## what structs stand for -/

/-- a struct of the contract stands for a source state, or for the physical layout of a target -/
inductive StandsFor (model : AbiModel) (lowering : LoweringTables) : String → AbiStructIdentity → Prop
  | source {source : SourceStateId} {representation : SourceRepresentationPlan}
      (listed : (source, representation) ∈ lowering.sourceRepresentations) :
      StandsFor model lowering (model.states.asStr source) (.source source)
  | output {id : PhysicalTargetId} {output : OutputPhysicalTypePlan} {physical : TargetPhysicalPlan}
      {name : String} {identity : AbiStructIdentity}
      (listed : (id, output) ∈ lowering.outputPhysicalTypes)
      (canonical : lowering.target output.canonicalTarget = some physical)
      (named : physicalIdentity model output.silType physical = some (name, identity)) :
      StandsFor model lowering name identity
  | target {id : PhysicalTargetId} {physical : TargetPhysicalPlan} {name : String}
      {identity : AbiStructIdentity} (listed : (id, physical) ∈ lowering.targetPhysical)
      (named : physicalIdentity model physical.silType physical = some (name, identity)) :
      StandsFor model lowering name identity

section
variable {model : AbiModel} {lowering : LoweringTables} {artifact : VersionedAbi}
  {sources sources' : BTreeMap String AbiStructIdentity} {named : String × AbiStructIdentity}

/-- What is recorded from `sources` to `sources'`: what is named, under the names that the artifact
has structs for. -/
structure Records (artifact : VersionedAbi) (named : String → AbiStructIdentity → Prop)
    (sources sources' : BTreeMap String AbiStructIdentity) : Prop where
  kept : ∀ name identity, sources.get name = some identity → sources'.get name = some identity
  recorded : ∀ name identity, named name identity →
    ∀ struct, artifact.structs.get name = some struct → sources'.get name = some identity
  only : ∀ name identity, sources'.get name = some identity → sources.get name = some identity ∨
    named name identity ∧ ∃ struct, artifact.structs.get name = some struct

namespace Records
variable {first second : String → AbiStructIdentity → Prop}
  {middle : BTreeMap String AbiStructIdentity}

theorem refl (h : ∀ name identity, ¬ first name identity) : Records artifact first sources sources :=
  ⟨fun _ _ hget => hget, fun name identity hnamed => absurd hnamed (h name identity),
    fun _ _ hget => .inl hget⟩

theorem imp (h : Records artifact first sources sources')
    (heq : ∀ name identity, first name identity ↔ second name identity) :
    Records artifact second sources sources' := by
  have hsame : first = second := by
    funext name identity
    exact propext (heq name identity)
  rw [← hsame]
  exact h

theorem trans (h : Records artifact first sources middle) (h' : Records artifact second middle sources') :
    Records artifact (fun name identity => first name identity ∨ second name identity) sources
      sources' where
  kept name identity hget := h'.kept name identity (h.kept name identity hget)
  recorded name identity hnamed struct hstruct := by
    obtain hfirst | hsecond := hnamed
    · exact h'.kept name identity (h.recorded name identity hfirst struct hstruct)
    · exact h'.recorded name identity hsecond struct hstruct
  only name identity hget := by
    obtain hmiddle | ⟨hsecond, hstruct⟩ := h'.only name identity hget
    · obtain hsources | ⟨hfirst, hstruct⟩ := h.only name identity hmiddle
      · exact .inl hsources
      · exact .inr ⟨.inl hfirst, hstruct⟩
    · exact .inr ⟨.inr hsecond, hstruct⟩

theorem foldlM {α : Type} {f : BTreeMap String AbiStructIdentity → α →
      Except String (BTreeMap String AbiStructIdentity)}
    {named : α → String → AbiStructIdentity → Prop}
    (hf : ∀ sources a sources', f sources a = .ok sources' →
      Records artifact (named a) sources sources')
    {l : List α} (h : l.foldlM f sources = .ok sources') :
    Records artifact (fun name identity => ∃ a ∈ l, named a name identity) sources sources' := by
  induction l generalizing sources with
  | nil =>
    cases h
    apply refl
    rintro name identity ⟨a, hmem, -⟩
    cases hmem
  | cons a l ih =>
    rw [List.foldlM_cons] at h
    obtain ⟨next, hnext, hrest⟩ := bind_eq_ok.mp h
    apply ((hf _ _ _ hnext).trans (ih hrest)).imp
    intro name identity
    rw [List.exists_mem_cons_iff]

end Records

theorem recordIdentity_ok (h : recordIdentity artifact sources named = .ok sources') :
    Records artifact (fun name identity => named = (name, identity)) sources sources' := by
  unfold recordIdentity at h
  cases hget : artifact.structs.get named.1 with
  | none =>
    rw [hget, if_neg (by simp)] at h
    cases h
    refine ⟨fun _ _ h => h, fun name identity hnamed struct hstruct => ?_, fun _ _ h => .inl h⟩
    rw [hnamed, hstruct] at hget
    cases hget
  | some struct =>
    rw [hget, if_pos Option.isSome_some] at h
    obtain ⟨hsame, h⟩ := check_eq_ok.mp h
    rw [rejectIf_eq_ok] at hsame
    cases h
    refine ⟨fun name identity hidentity => ?_, fun name identity hnamed _ _ => ?_,
      fun name identity hidentity => ?_⟩
    · by_cases hname : name = named.1
      · rw [hname] at hidentity ⊢
        rw [hidentity] at hsame
        have heq : identity = named.2 := by
          by_contra hne
          exact hsame (decide_eq_true hne)
        rw [get_insert_self, heq]
      · rw [get_insert_of_ne hname, hidentity]
    · rw [hnamed]
      exact get_insert_self _ _ _
    · by_cases hname : name = named.1
      · rw [hname, get_insert_self] at hidentity
        rw [hname, ← Option.some.inj hidentity]
        exact .inr ⟨rfl, struct, hget⟩
      · rw [get_insert_of_ne hname] at hidentity
        exact .inl hidentity

theorem sourceStructName_ok {source : SourceStateId} {silType : SilStateType} {name : String}
    (h : sourceStructName model source silType = .ok name) : name = model.states.asStr source := by
  cases silType with
  | state => exact (Except.ok.inj h).symm
  | source planned =>
    rw [sourceStructName] at h
    by_cases hplanned : planned = source
    · rw [if_pos hplanned, hplanned] at h
      exact (Except.ok.inj h).symm
    · rw [if_neg hplanned] at h
      cases h
  | storagePhysical source => cases h
  | targetPhysical target => cases h

theorem recordSource_ok {entry : SourceStateId × SourceRepresentationPlan}
    (h : recordSource model artifact sources entry = .ok sources') : Records artifact
      (fun name identity => (model.states.asStr entry.1, .source entry.1) = (name, identity)) sources
      sources' := by
  unfold recordSource at h
  obtain ⟨name, hname, h⟩ := bind_eq_ok.mp h
  rw [sourceStructName_ok hname] at h
  exact recordIdentity_ok h

theorem recordSelected_ok {selected : Except String (SilStateType × TargetPhysicalPlan)}
    (h : recordSelected model artifact sources selected = .ok sources') : Records artifact
      (fun name identity => ∃ silType physical, selected = .ok (silType, physical) ∧
        physicalIdentity model silType physical = some (name, identity)) sources sources' := by
  unfold recordSelected at h
  obtain ⟨⟨silType, physical⟩, hselected, hrecord⟩ := bind_eq_ok.mp h
  rw [hselected]
  dsimp only at hrecord
  have hnamed : ∀ name identity, (∃ silType' physical', Except.ok (ε := String) (silType, physical) =
      .ok (silType', physical') ∧ physicalIdentity model silType' physical' = some (name, identity)) ↔
      physicalIdentity model silType physical = some (name, identity) := by
    intro name identity
    constructor
    · rintro ⟨silType', physical', heq, h⟩
      cases heq
      exact h
    · intro h
      exact ⟨silType, physical, rfl, h⟩
  cases hidentity : physicalIdentity model silType physical with
  | none =>
    rw [hidentity] at hrecord
    cases hrecord
    apply Records.refl
    intro name identity h
    rw [hnamed, hidentity] at h
    cases h
  | some named =>
    rw [hidentity] at hrecord
    apply (recordIdentity_ok hrecord).imp
    intro name identity
    rw [hnamed, hidentity, Option.some.injEq]

theorem mem_selectedTypes {silType : SilStateType} {physical : TargetPhysicalPlan} :
    .ok (silType, physical) ∈ selectedTypes lowering ↔
      (∃ id output, (id, output) ∈ lowering.outputPhysicalTypes ∧
        lowering.target output.canonicalTarget = some physical ∧ output.silType = silType) ∨
      ∃ id, (id, physical) ∈ lowering.targetPhysical ∧ physical.silType = silType := by
  unfold selectedTypes
  rw [List.mem_append, List.mem_map, List.mem_map]
  apply or_congr
  · constructor
    · rintro ⟨⟨id, output⟩, hmem, h⟩
      rw [okOr_eq_ok, Option.map_eq_some_iff] at h
      obtain ⟨found, hfound, heq⟩ := h
      cases heq
      exact ⟨id, output, hmem, hfound, rfl⟩
    · rintro ⟨id, output, hmem, hfound, rfl⟩
      refine ⟨(id, output), hmem, ?_⟩
      rw [okOr_eq_ok, Option.map_eq_some_iff]
      exact ⟨physical, hfound, rfl⟩
  · constructor
    · rintro ⟨⟨id, listed⟩, hmem, h⟩
      cases h
      exact ⟨id, hmem, rfl⟩
    · rintro ⟨id, hmem, rfl⟩
      exact ⟨(id, physical), hmem, rfl⟩

/-- **the structs of an artifact are recorded with what they stand for** -/
theorem incomingSources_ok (h : incomingSources model lowering artifact = .ok sources) :
    Records artifact (StandsFor model lowering) ∅ sources := by
  unfold incomingSources at h
  obtain ⟨authored, hauthored, hselected⟩ := bind_eq_ok.mp h
  have hsources := Records.foldlM (fun _ _ _ h => recordSource_ok h) hauthored
  have htypes := Records.foldlM (fun _ _ _ h => recordSelected_ok h) hselected
  apply (hsources.trans htypes).imp
  intro name identity
  constructor
  · rintro (⟨⟨source, representation⟩, hmem, heq⟩ | ⟨selected, hmem, silType, physical, rfl, hnamed⟩)
    · cases heq
      exact .source hmem
    · obtain ⟨id, output, hlisted, hcanonical, rfl⟩ | ⟨id, hlisted, rfl⟩ := mem_selectedTypes.mp hmem
      · exact .output hlisted hcanonical hnamed
      · exact .target hlisted hnamed
  · intro hstands
    cases hstands with
    | source listed => exact .inl ⟨_, listed, rfl⟩
    | output listed canonical named =>
      exact .inr ⟨_, mem_selectedTypes.mpr (.inl ⟨_, _, listed, canonical, rfl⟩), _, _, rfl, named⟩
    | target listed named =>
      exact .inr ⟨_, mem_selectedTypes.mpr (.inr ⟨_, listed, rfl⟩), _, _, rfl, named⟩

end

/-! ## one merge -/

section
variable {left right out : SourcedAbi}

/-- a struct may be merged beside the one that has its name already -/
def StructAllowed (leftSources rightSources : BTreeMap String AbiStructIdentity) (name : String)
    (struct : StructArtifact) (existing : Option StructArtifact) : Prop :=
  (rightSources.get name).isSome ∧ ∀ struct', existing = some struct' →
    struct' = struct ∧ leftSources.get name = rightSources.get name

def ContractAllowed (_ : String) (_ : SilContractArtifact) (existing : Option SilContractArtifact) :
    Prop := existing = none

theorem mergeStruct_ok {leftSources rightSources : BTreeMap String AbiStructIdentity}
    {structs structs' : BTreeMap String StructArtifact} {name : String} {struct : StructArtifact} :
    mergeStruct leftSources rightSources structs (name, struct) = .ok structs' ↔
      StructAllowed leftSources rightSources name struct (structs.get name) ∧
        structs' = structs.insert name struct := by
  unfold mergeStruct StructAllowed
  rw [check_eq_ok, rejectIf_eq_ok, Bool.not_eq_true, Option.isNone_eq_false_iff, and_assoc]
  apply and_congr_right
  intro hidentity
  cases hget : structs.get name with
  | none =>
    dsimp only
    constructor
    · intro h
      exact ⟨fun existing hexisting => (nomatch hexisting), (Except.ok.inj h).symm⟩
    · rintro ⟨-, rfl⟩
      rfl
  | some existing =>
    dsimp only
    rw [check_eq_ok, check_eq_ok, rejectIf_eq_ok, rejectIf_eq_ok, not_not, not_not]
    have hinsert : existing = struct → structs.insert name struct = structs := by
      intro heq
      apply ext_get
      intro other
      by_cases hother : other = name
      · rw [hother, get_insert_self, hget, heq]
      · rw [get_insert_of_ne hother]
    constructor
    · rintro ⟨hsame, hsources, h⟩
      cases h
      refine ⟨fun other hother => ?_, (hinsert hsame).symm⟩
      cases hother
      exact ⟨hsame, hsources⟩
    · rintro ⟨hall, rfl⟩
      obtain ⟨hsame, hsources⟩ := hall existing rfl
      rw [hinsert hsame]
      exact ⟨hsame, hsources, rfl⟩

theorem mergeContract_ok {contracts contracts' : BTreeMap String SilContractArtifact}
    {name : String} {contract : SilContractArtifact} :
    mergeContract contracts (name, contract) = .ok contracts' ↔
      ContractAllowed name contract (contracts.get name) ∧
        contracts' = contracts.insert name contract := by
  unfold mergeContract ContractAllowed
  rw [check_eq_ok, rejectIf_eq_ok, Option.not_isSome_iff_eq_none]
  apply and_congr_right
  intro _
  exact ⟨fun h => (Except.ok.inj h).symm, fun h => congrArg Except.ok h.symm⟩

/-- only structs of the artifact stand for something -/
def SourcedAbi.Keyed (part : SourcedAbi) : Prop :=
  ∀ name identity, part.sources.get name = some identity →
    ∃ struct, part.artifact.structs.get name = some struct

/-- the structs and contracts that two artifacts have in common -/
structure Agree (left right : SourcedAbi) : Prop where
  structs : ∀ name struct struct', left.artifact.structs.get name = some struct →
    right.artifact.structs.get name = some struct' →
      struct = struct' ∧ left.sources.get name = right.sources.get name
  contracts : ∀ name contract, left.artifact.contracts.get name = some contract →
    right.artifact.contracts.get name = none

theorem Agree.symm (h : Agree left right) : Agree right left where
  structs name struct struct' hstruct hstruct' := by
    obtain ⟨hsame, hsources⟩ := h.structs name struct' struct hstruct' hstruct
    exact ⟨hsame.symm, hsources.symm⟩
  contracts name contract hcontract := by
    cases hleft : left.artifact.contracts.get name with
    | none => rfl
    | some contract' =>
      have hnone := h.contracts name contract' hleft
      rw [hcontract] at hnone
      cases hnone

/-- an artifact of these versions, each struct of which stands for something -/
structure Mergeable (schemaVersion : Nat) (compilerVersion : String) (right : SourcedAbi) : Prop where
  schemaVersion : right.artifact.schemaVersion = schemaVersion
  compilerVersion : right.artifact.compilerVersion = compilerVersion
  identified : ∀ name struct, right.artifact.structs.get name = some struct →
    (right.sources.get name).isSome

/-- two artifacts side by side -/
def joined (left right : SourcedAbi) : SourcedAbi where
  artifact := { left.artifact with
    structs := left.artifact.structs.extend right.artifact.structs
    contracts := left.artifact.contracts.extend right.artifact.contracts }
  sources := left.sources.extend right.sources

/-- **two artifacts are merged when they agree** -/
theorem mergeSilAbiArtifacts_ok : mergeSilAbiArtifacts left right = .ok out ↔
    (Mergeable left.artifact.schemaVersion left.artifact.compilerVersion right ∧
      Agree left right) ∧ out = joined left right := by
  unfold mergeSilAbiArtifacts
  rw [check_eq_ok, check_eq_ok, rejectIf_eq_ok, rejectIf_eq_ok, not_not, not_not]
  constructor
  · rintro ⟨hschema, hcompiler, h⟩
    obtain ⟨structs, hstructs, h⟩ := bind_eq_ok.mp h
    obtain ⟨contracts, hcontracts, h⟩ := bind_eq_ok.mp h
    obtain ⟨hallowed, rfl⟩ := (foldlM_entries_ok fun _ _ _ _ => mergeStruct_ok).mp hstructs
    obtain ⟨hfresh, rfl⟩ := (foldlM_entries_ok fun _ _ _ _ => mergeContract_ok).mp hcontracts
    cases h
    refine ⟨⟨⟨hschema.symm, hcompiler.symm, fun name struct hstruct => ?_⟩, ⟨?_, ?_⟩⟩, rfl⟩
    · exact (hallowed name struct hstruct).1
    · intro name struct struct' hstruct hstruct'
      exact (hallowed name struct' hstruct').2 struct hstruct
    · intro name contract hcontract
      cases hright : right.artifact.contracts.get name with
      | none => rfl
      | some contract' =>
        have hnone := hfresh name contract' hright
        rw [hcontract] at hnone
        cases hnone
  · rintro ⟨⟨hmergeable, hagree⟩, rfl⟩
    refine ⟨hmergeable.schemaVersion.symm, hmergeable.compilerVersion.symm, ?_⟩
    refine bind_eq_ok.mpr ⟨left.artifact.structs.extend right.artifact.structs, ?_,
      bind_eq_ok.mpr ⟨left.artifact.contracts.extend right.artifact.contracts, ?_, rfl⟩⟩
    · refine (foldlM_entries_ok fun _ _ _ _ => mergeStruct_ok).mpr ⟨fun name struct hstruct => ?_, rfl⟩
      refine ⟨hmergeable.identified name struct hstruct, fun struct' hstruct' => ?_⟩
      exact hagree.structs name struct' struct hstruct' hstruct
    · refine (foldlM_entries_ok fun _ _ _ _ => mergeContract_ok).mpr
        ⟨fun name contract hcontract => ?_, rfl⟩
      exact hagree.symm.contracts name contract hcontract

end

/-! ## a run of merges -/

section
variable {base out out' : SourcedAbi} {parts parts' : List SourcedAbi}

/-- what a run of merges checks -/
structure Consistent (base : SourcedAbi) (parts : List SourcedAbi) : Prop where
  mergeable : ∀ part ∈ parts,
    Mergeable base.artifact.schemaVersion base.artifact.compilerVersion part
  agree : parts.Pairwise Agree

theorem Consistent.perm (h : Consistent base parts) (hperm : parts.Perm parts') :
    Consistent base parts' where
  mergeable part hmem := h.mergeable part (hperm.mem_iff.mpr hmem)
  agree := (hperm.pairwise_iff Agree.symm).mp h.agree

/-- what a run of merges makes -/
structure Joined (base : SourcedAbi) (parts : List SourcedAbi) (out : SourcedAbi) : Prop where
  schemaVersion : out.artifact.schemaVersion = base.artifact.schemaVersion
  compilerVersion : out.artifact.compilerVersion = base.artifact.compilerVersion
  structs : IsUnion (parts.map (·.artifact.structs)) out.artifact.structs
  contracts : IsUnion (parts.map (·.artifact.contracts)) out.artifact.contracts
  sources : IsUnion (parts.map (·.sources)) out.sources

theorem Joined.perm (h : Joined base parts out) (hperm : parts.Perm parts') :
    Joined base parts' out where
  schemaVersion := h.schemaVersion
  compilerVersion := h.compilerVersion
  structs := h.structs.perm (hperm.map _)
  contracts := h.contracts.perm (hperm.map _)
  sources := h.sources.perm (hperm.map _)

theorem Joined.unique (h : Joined base parts out) (h' : Joined base parts out') :
    out.artifact = out'.artifact := by
  have hstructs := h.structs.unique h'.structs
  have hcontracts := h.contracts.unique h'.contracts
  have hschema := h.schemaVersion.trans h'.schemaVersion.symm
  have hcompiler := h.compilerVersion.trans h'.compilerVersion.symm
  obtain ⟨⟨⟨schema, structs, contracts⟩, compiler⟩, sources⟩ := out
  obtain ⟨⟨⟨schema', structs', contracts'⟩, compiler'⟩, sources'⟩ := out'
  cases hstructs
  cases hcontracts
  cases hschema
  cases hcompiler
  rfl

theorem Joined.agree {part right : SourcedAbi} (h : Joined base parts out) (hpart : part ∈ parts)
    (hpartOk : Mergeable base.artifact.schemaVersion base.artifact.compilerVersion part)
    (hagree : Agree out right) : Agree part right where
  structs name struct struct' hstruct hstruct' := by
    have hout := h.structs.get_iff.mpr ⟨part, hpart, hstruct⟩
    obtain ⟨hsame, hsources⟩ := hagree.structs name struct struct' hout hstruct'
    obtain ⟨identity, hidentity⟩ := Option.isSome_iff_exists.mp
      (hpartOk.identified name struct hstruct)
    have houtSource := h.sources.get_iff.mpr ⟨part, hpart, hidentity⟩
    refine ⟨hsame, ?_⟩
    rw [hidentity, ← houtSource, hsources]
  contracts name contract hcontract :=
    hagree.contracts name contract (h.contracts.get_iff.mpr ⟨part, hpart, hcontract⟩)

/-- what agrees with every part agrees with the union -/
theorem Joined.agree_of_forall {right : SourcedAbi} (h : Joined base parts out)
    (hparts : ∀ part ∈ parts, Agree part right)
    (hidentified : ∀ part ∈ parts, ∀ name struct, part.artifact.structs.get name = some struct →
      (part.sources.get name).isSome) : Agree out right where
  structs name struct struct' hstruct hstruct' := by
    obtain ⟨part, hmem, hpart⟩ := h.structs.get_iff.mp hstruct
    obtain ⟨hsame, hsources⟩ := (hparts part hmem).structs name struct struct' hpart hstruct'
    obtain ⟨identity, hidentity⟩ := Option.isSome_iff_exists.mp
      (hidentified part hmem name struct hpart)
    have houtSource := h.sources.get_iff.mpr ⟨part, hmem, hidentity⟩
    refine ⟨hsame, ?_⟩
    rw [houtSource, ← hidentity, hsources]
  contracts name contract hcontract := by
    obtain ⟨part, hmem, hpart⟩ := h.contracts.get_iff.mp hcontract
    exact (hparts part hmem).contracts name contract hpart

theorem Joined.snoc {right : SourcedAbi} (h : Joined base parts out) (hagree : Agree out right)
    (hparts : ∀ part ∈ parts, part.Keyed)
    (hright : right.Keyed) :
    Joined base (parts ++ [right]) (joined out right) where
  schemaVersion := h.schemaVersion
  compilerVersion := h.compilerVersion
  structs := by
    rw [List.map_append]
    refine h.structs.snoc fun name struct struct' hstruct hstruct' => ?_
    exact (hagree.structs name struct struct' hstruct hstruct').1
  contracts := by
    rw [List.map_append]
    refine h.contracts.snoc fun name contract contract' hcontract hcontract' => ?_
    rw [hagree.contracts name contract hcontract] at hcontract'
    cases hcontract'
  sources := by
    rw [List.map_append]
    refine h.sources.snoc fun name identity identity' hidentity hidentity' => ?_
    -- both identities are those of a struct that the artifacts have in common
    obtain ⟨part, hmem, hpart⟩ := h.sources.get_iff.mp hidentity
    obtain ⟨struct, hstruct⟩ := hparts part hmem name identity hpart
    obtain ⟨struct', hstruct'⟩ := hright name identity' hidentity'
    have hout := h.structs.get_iff.mpr ⟨part, hmem, hstruct⟩
    have hsources := (hagree.structs name struct struct' hout hstruct').2
    rw [hidentity, hidentity'] at hsources
    exact Option.some.inj hsources

theorem Joined.nil (hstructs : base.artifact.structs = ∅) (hcontracts : base.artifact.contracts = ∅)
    (hsources : base.sources = ∅) : Joined base [] base where
  schemaVersion := rfl
  compilerVersion := rfl
  structs := hstructs ▸ IsUnion.nil
  contracts := hcontracts ▸ IsUnion.nil
  sources := hsources ▸ IsUnion.nil

variable (hstructs : base.artifact.structs = ∅) (hcontracts : base.artifact.contracts = ∅)
  (hsources : base.sources = ∅)
include hstructs hcontracts hsources

/-- **a run of merges succeeds when its artifacts agree, and then it has joined them** -/
theorem run_ok (hparts : ∀ part ∈ parts, part.Keyed) :
    parts.foldlM mergeSilAbiArtifacts base = .ok out → Consistent base parts ∧
      Joined base parts out := by
  induction parts using List.reverseRecOn generalizing out with
  | nil =>
    intro h
    cases h
    exact ⟨⟨fun part hmem => absurd hmem List.not_mem_nil, List.Pairwise.nil⟩,
      Joined.nil hstructs hcontracts hsources⟩
  | append_singleton parts right ih =>
    intro h
    rw [List.foldlM_append] at h
    obtain ⟨middle, hmiddle, hlast⟩ := bind_eq_ok.mp h
    have hinit : ∀ part ∈ parts, part.Keyed := by
      intro part hmem
      exact hparts part (List.mem_append_left _ hmem)
    obtain ⟨hconsistent, hjoined⟩ := ih hinit hmiddle
    rw [List.foldlM_cons] at hlast
    obtain ⟨last, hlast, hout⟩ := bind_eq_ok.mp hlast
    cases hout
    obtain ⟨⟨hmergeable, hagree⟩, rfl⟩ := mergeSilAbiArtifacts_ok.mp hlast
    rw [hjoined.schemaVersion, hjoined.compilerVersion] at hmergeable
    refine ⟨⟨fun part hmem => ?_, ?_⟩, hjoined.snoc hagree hinit
      (hparts right (List.mem_append_right _ List.mem_cons_self))⟩
    · obtain hmem | hmem := List.mem_append.mp hmem
      · exact hconsistent.mergeable part hmem
      · rw [List.mem_singleton.mp hmem]
        exact hmergeable
    · refine List.pairwise_append.mpr ⟨hconsistent.agree, List.pairwise_singleton _ _, ?_⟩
      intro part hpart other hother
      rw [List.mem_singleton.mp hother]
      exact hjoined.agree hpart (hconsistent.mergeable part hpart) hagree

theorem exists_run (hparts : ∀ part ∈ parts, part.Keyed)
    (h : Consistent base parts) : ∃ out, parts.foldlM mergeSilAbiArtifacts base = .ok out := by
  induction parts using List.reverseRecOn with
  | nil => exact ⟨base, rfl⟩
  | append_singleton parts right ih =>
    have hinit : ∀ part ∈ parts, part.Keyed := by
      intro part hmem
      exact hparts part (List.mem_append_left _ hmem)
    obtain ⟨hagree, -, hlast⟩ := List.pairwise_append.mp h.agree
    have hmergeable := fun part hmem => h.mergeable part (List.mem_append_left _ hmem)
    obtain ⟨middle, hmiddle⟩ := ih hinit ⟨hmergeable, hagree⟩
    have hjoined := (run_ok hstructs hcontracts hsources hinit hmiddle).2
    have hright := h.mergeable right (List.mem_append_right _ List.mem_cons_self)
    have hagreeRight : Agree middle right := by
      refine hjoined.agree_of_forall (fun part hmem => ?_) fun part hmem => ?_
      · exact hlast part hmem right (List.mem_singleton_self right)
      · exact (hmergeable part hmem).identified
    refine ⟨joined middle right, ?_⟩
    rw [List.foldlM_append]
    refine bind_eq_ok.mpr ⟨middle, hmiddle, ?_⟩
    rw [List.foldlM_cons]
    refine bind_eq_ok.mpr ⟨joined middle right, mergeSilAbiArtifacts_ok.mpr ⟨⟨?_, hagreeRight⟩, rfl⟩,
      rfl⟩
    rw [hjoined.schemaVersion, hjoined.compilerVersion]
    exact hright

end

/-! ## the ABI of an app -/

section
variable {model : AbiModel} {actors actors' : List DeclId} {abi : VersionedAbi}

/-- a struct of an actor, after the references to `State` are replaced -/
def StructOf (model : AbiModel) (id : DeclId) (name : String) (struct : StructArtifact) : Prop :=
  ∃ actor direct artifact, model.actorByDecl id = .ok actor ∧ directAbi model id actor = .ok direct ∧
    canonicalizeSilAbiStructStateRefs model id actor direct = .ok artifact ∧
    artifact.structs.get name = some struct

/-- an actor's struct stands for something in the state lowering of the actor -/
def StructStandsFor (model : AbiModel) (id : DeclId) (name : String) (identity : AbiStructIdentity) :
    Prop :=
  ∃ lowering struct, model.stateLowering id = .ok lowering ∧ StructOf model id name struct ∧
    StandsFor model lowering name identity

/-- an actor's contracts and structs in the ABI of the app -/
structure Kept (model : AbiModel) (id : DeclId) (actor : ActorDecl) (direct abi : VersionedAbi) :
    Prop where
  contracts : ∀ name contract, direct.contracts.get name = some contract →
    abi.contracts.get name = some contract
  plain : ∀ name struct, direct.structs.get name = some struct →
    structReferencesState struct = false → abi.structs.get name = some struct
  replaced : ∀ name struct, direct.structs.get name = some struct →
    structReferencesState struct = true → ∃ source contract, model.actorState id = .ok source ∧
      direct.contracts.get actor.name = some contract ∧
      abi.structs.get name = some (replaceStateRefs (model.states.asStr source) struct) ∧
      abi.structs.get (model.states.asStr source) =
        some (replaceStateRefs (model.states.asStr source) (authoredState contract))

/-- what one actor brings into the merge -/
structure Brings (model : AbiModel) (id : DeclId) (part : SourcedAbi) : Prop where
  canonical : ∃ actor direct, model.actorByDecl id = .ok actor ∧ directAbi model id actor = .ok direct ∧
    Canonical model id actor direct part.artifact
  structs : ∀ name struct, StructOf model id name struct ↔ part.artifact.structs.get name = some struct
  records : ∃ lowering, model.stateLowering id = .ok lowering ∧
    Records part.artifact (StandsFor model lowering) ∅ part.sources

theorem actorAbi_ok {id : DeclId} {part : SourcedAbi} (h : actorAbi model id = .ok part) :
    Brings model id part := by
  unfold actorAbi at h
  obtain ⟨actor, hactor, h⟩ := bind_eq_ok.mp h
  obtain ⟨direct, hdirect, h⟩ := bind_eq_ok.mp h
  obtain ⟨artifact, hartifact, h⟩ := bind_eq_ok.mp h
  obtain ⟨lowering, hlowering, h⟩ := bind_eq_ok.mp h
  obtain ⟨sources, hsources, h⟩ := bind_eq_ok.mp h
  cases h
  refine ⟨⟨actor, direct, hactor, hdirect, canonicalize_ok hartifact⟩, fun name struct => ?_,
    lowering, hlowering, incomingSources_ok hsources⟩
  constructor
  · rintro ⟨actor', direct', artifact', hactor', hdirect', hartifact', hstruct⟩
    rw [hactor] at hactor'
    cases hactor'
    rw [hdirect] at hdirect'
    cases hdirect'
    rw [hartifact] at hartifact'
    cases hartifact'
    exact hstruct
  · intro hstruct
    exact ⟨actor, direct, artifact, hactor, hdirect, hartifact, hstruct⟩

theorem Brings.keyed {id : DeclId} {part : SourcedAbi} (h : Brings model id part) : part.Keyed := by
  intro name identity hidentity
  obtain ⟨lowering, -, hrecords⟩ := h.records
  obtain hempty | ⟨-, hstruct⟩ := hrecords.only name identity hidentity
  · cases hempty
  · exact hstruct

/-- a run over the actors is a run of merges over what they bring -/
theorem silAbiArtifact_ok : silAbiArtifact model actors = .ok abi ↔
    ∃ parts out, actors.mapM (actorAbi model) = .ok parts ∧
      parts.foldlM mergeSilAbiArtifacts (emptyAbi model) = .ok out ∧ abi = out.artifact := by
  unfold silAbiArtifact
  rw [bind_eq_ok]
  constructor
  · rintro ⟨out, hout, h⟩
    obtain ⟨parts, hparts, hrun⟩ := foldlM_mapM.mp hout
    exact ⟨parts, out, hparts, hrun, (Except.ok.inj h).symm⟩
  · rintro ⟨parts, out, hparts, hrun, rfl⟩
    exact ⟨out, foldlM_mapM.mpr ⟨parts, hparts, hrun⟩, rfl⟩

theorem keyed_of_mapM {parts : List SourcedAbi} (h : actors.mapM (actorAbi model) = .ok parts) :
    ∀ part ∈ parts, part.Keyed := by
  intro part hmem
  obtain ⟨id, -, hpart⟩ := mem_of_mapM_ok h hmem
  exact (actorAbi_ok hpart).keyed

theorem silAbiArtifact_perm (hperm : actors.Perm actors') (h : silAbiArtifact model actors = .ok abi) :
    silAbiArtifact model actors' = .ok abi := by
  obtain ⟨parts, out, hparts, hrun, rfl⟩ := silAbiArtifact_ok.mp h
  obtain ⟨parts', hparts', hperm⟩ := mapM_perm hperm hparts
  obtain ⟨hconsistent, hjoined⟩ := run_ok rfl rfl rfl (keyed_of_mapM hparts) hrun
  have hkeyed := keyed_of_mapM hparts'
  obtain ⟨out', hrun'⟩ := exists_run rfl rfl rfl hkeyed (hconsistent.perm hperm)
  have hjoined' := (run_ok rfl rfl rfl hkeyed hrun').2
  exact silAbiArtifact_ok.mpr ⟨parts', out', hparts', hrun', (hjoined.perm hperm).unique hjoined'⟩

theorem Canonical.kept {id : DeclId} {actor : ActorDecl} {direct : VersionedAbi}
    {base part out : SourcedAbi} {parts : List SourcedAbi}
    (h : Canonical model id actor direct part.artifact) (hjoined : Joined base parts out)
    (hmem : part ∈ parts) : Kept model id actor direct out.artifact where
  contracts name contract hcontract := by
    rw [← h.contracts] at hcontract
    exact hjoined.contracts.get_iff.mpr ⟨part, hmem, hcontract⟩
  plain name struct hstruct hplain :=
    hjoined.structs.get_iff.mpr ⟨part, hmem, h.plain name struct hstruct hplain⟩
  replaced name struct hstruct href := by
    obtain ⟨source, contract, hsource, hcontract, hreplaced, hcanonical⟩ :=
      h.replaced name struct hstruct href
    refine ⟨source, contract, hsource, hcontract, ?_, ?_⟩
    · exact hjoined.structs.get_iff.mpr ⟨part, hmem, hreplaced⟩
    · exact hjoined.structs.get_iff.mpr ⟨part, hmem, hcanonical⟩

/-- what a struct of an actor stands for is recorded in what the actor brings -/
theorem Brings.source_of_standsFor {id : DeclId} {part : SourcedAbi} {name : String}
    {identity : AbiStructIdentity} (h : Brings model id part)
    (hstands : StructStandsFor model id name identity) : part.sources.get name = some identity := by
  obtain ⟨lowering, struct, hlowering, hstruct, hstands⟩ := hstands
  obtain ⟨lowering', hlowering', hrecords⟩ := h.records
  rw [hlowering] at hlowering'
  cases hlowering'
  exact hrecords.recorded name identity hstands struct ((h.structs name struct).mp hstruct)

theorem Brings.standsFor_of_source {id : DeclId} {part : SourcedAbi} {name : String}
    {identity : AbiStructIdentity} (h : Brings model id part)
    (hsource : part.sources.get name = some identity) : StructStandsFor model id name identity := by
  obtain ⟨lowering, hlowering, hrecords⟩ := h.records
  obtain hempty | ⟨hstands, struct, hstruct⟩ := hrecords.only name identity hsource
  · cases hempty
  · exact ⟨lowering, struct, hlowering, (h.structs name struct).mpr hstruct, hstands⟩

/-- **The ABI of an app does not depend on the order of its actors.**  It has all their contracts, and
all their structs without references to `State`; a name is never shared by structs that stand for
different things. -/
theorem silAbiArtifact_spec (model : AbiModel) (actors : List DeclId) :
    (∀ actors' abi, actors.Perm actors' →
      (silAbiArtifact model actors = .ok abi ↔ silAbiArtifact model actors' = .ok abi)) ∧
    ∀ abi, silAbiArtifact model actors = .ok abi →
      (∀ id ∈ actors, ∃ actor direct, model.actorByDecl id = .ok actor ∧
        directAbi model id actor = .ok direct ∧ Kept model id actor direct abi) ∧
      (∀ name struct, abi.structs.get name = some struct → structReferencesState struct = false) ∧
      (∀ id ∈ actors, ∀ name struct, StructOf model id name struct →
        abi.structs.get name = some struct ∧ ∃ identity, StructStandsFor model id name identity) ∧
      ∀ id ∈ actors, ∀ id' ∈ actors, ∀ name identity identity',
        StructStandsFor model id name identity → StructStandsFor model id' name identity' →
          identity = identity' := by
  refine ⟨fun actors' abi hperm => ?_, fun abi h => ?_⟩
  · exact ⟨silAbiArtifact_perm hperm, silAbiArtifact_perm hperm.symm⟩
  obtain ⟨parts, out, hparts, hrun, rfl⟩ := silAbiArtifact_ok.mp h
  obtain ⟨hconsistent, hjoined⟩ := run_ok rfl rfl rfl (keyed_of_mapM hparts) hrun
  have hbrings : ∀ id ∈ actors, ∃ part ∈ parts, Brings model id part := by
    intro id hid
    obtain ⟨part, hmem, hpart⟩ := mapM_ok_of_mem hparts hid
    exact ⟨part, hmem, actorAbi_ok hpart⟩
  refine ⟨fun id hid => ?_, fun name struct hstruct => ?_, fun id hid name struct hstruct => ?_, ?_⟩
  · obtain ⟨part, hmem, hpart⟩ := hbrings id hid
    obtain ⟨actor, direct, hactor, hdirect, hcanonical⟩ := hpart.canonical
    exact ⟨actor, direct, hactor, hdirect, hcanonical.kept hjoined hmem⟩
  · obtain ⟨part, hmem, hpart⟩ := hjoined.structs.get_iff.mp hstruct
    obtain ⟨id, -, hid⟩ := mem_of_mapM_ok hparts hmem
    obtain ⟨actor, direct, -, -, hcanonical⟩ := (actorAbi_ok hid).canonical
    exact hcanonical.clean name struct hpart
  · obtain ⟨part, hmem, hpart⟩ := hbrings id hid
    have hget := (hpart.structs name struct).mp hstruct
    have hidentified := (hconsistent.mergeable part hmem).identified name struct hget
    obtain ⟨identity, hidentity⟩ := Option.isSome_iff_exists.mp hidentified
    exact ⟨hjoined.structs.get_iff.mpr ⟨part, hmem, hget⟩, identity,
      hpart.standsFor_of_source hidentity⟩
  · intro id hid id' hid' name identity identity' hstands hstands'
    obtain ⟨part, hmem, hpart⟩ := hbrings id hid
    obtain ⟨part', hmem', hpart'⟩ := hbrings id' hid'
    have hsource := hjoined.sources.get_iff.mpr ⟨part, hmem, hpart.source_of_standsFor hstands⟩
    have hsource' := hjoined.sources.get_iff.mpr ⟨part', hmem', hpart'.source_of_standsFor hstands'⟩
    rw [hsource] at hsource'
    exact Option.some.inj hsource'

end

/-! ## an actor with a global struct -/

def noteContract : SilContractArtifact where
  runtimeState := ⟨"NoteState", [⟨"nonce", .int⟩]⟩
  entries := BTreeMap.insert "inspect" ⟨[⟨"note", .struct "State"⟩]⟩ ∅
  compiled := ⟨[], default, ⟨0, 0⟩⟩

/-- a compiler with one contract -/
def noteCompiler : SilCompiler where
  Contract := Unit
  Compiled := Unit
  contractName _ := "Note"
  arrayExpr items := .ok (.array items)
  compileContractAst _ _ := .ok ()
  silAbiArtifactFromCompiled _ _ := .ok {
    schemaVersion := 1
    compilerVersion := "1"
    structs := BTreeMap.insert "NoteBox" ⟨[⟨"note", .struct "State"⟩]⟩ ∅
    contracts := BTreeMap.insert "Note" noteContract ∅ }
  silAbiSchemaVersion := 1
  compilerVersion := "1"

def noteStates : StateModel where
  stateSources := [⟨"NoteState"⟩, ⟨"NoteBox"⟩]
  stateBySource source :=
    if source = ⟨"NoteState"⟩ then .ok ⟨"NoteState", [⟨TypeRef.new "int", "nonce", false⟩], none⟩
    else if source = ⟨"NoteBox"⟩ then
      .ok ⟨"NoteBox", [⟨TypeRef.new "NoteState", "note", false⟩], none⟩
    else .error "unknown state"
  listed source state h := by
    by_cases hnote : source = ⟨"NoteState"⟩
    · exact hnote ▸ List.mem_cons_self
    · rw [if_neg hnote] at h
      by_cases hbox : source = ⟨"NoteBox"⟩
      · exact hbox ▸ List.mem_cons_of_mem _ List.mem_cons_self
      · rw [if_neg hbox] at h
        cases h
  asStr source := source.origin
  baseState source := source
  digestState _ _ _ := .error "no expansion"
  fieldState _ _ _ := .ok none
  linkedActors := []
  staticActorSourceState _ := .ok ⟨"NoteState"⟩
  selectorSourceState _ := .error "no selector"
  dynamicSourceStates _ := .ok []

def noteModel : AbiModel where
  compiler := noteCompiler
  states := noteStates
  contracts _ := some ()
  actorByDecl _ := .ok ⟨"Note", "NoteState"⟩
  actorState _ := .ok ⟨"NoteState"⟩
  asStr_ne_state id source h := by
    cases h
    decide
  stateLowering _ := .ok {
    active := ⟨[⟨.storage ⟨⟨"NoteState"⟩, "nonce"⟩, "nonce", TypeRef.new "int", "int", 8⟩]⟩
    sourceRepresentations := [
      (⟨"NoteBox"⟩, ⟨⟨"NoteBox"⟩, .identity [], .source ⟨"NoteBox"⟩⟩),
      (⟨"NoteState"⟩, ⟨⟨"NoteState"⟩, .identity [], .state⟩)]
    targetPhysical := []
    outputPhysicalTypes := [] }

/-- the struct refers to the authored state, the entry of the contract to `State` as before -/
theorem contract_keeps_state : ∃ abi, silAbiArtifact noteModel ["Note"] = .ok abi ∧
    abi.structs.get "NoteBox" = some ⟨[⟨"note", .struct "NoteState"⟩]⟩ ∧
    abi.structs.get "NoteState" = some ⟨[⟨"nonce", .int⟩]⟩ ∧
    (abi.contracts.get "Note").bind (fun contract => contract.entry "inspect") =
      some ⟨[⟨"note", .struct "State"⟩]⟩ ∧
    typeReferencesState (.struct "State") = true := by
  refine ⟨_, rfl, ?_, ?_, ?_, rfl⟩
  · rfl
  · rfl
  · rfl

end Argent.Codegen.AbiMerge
