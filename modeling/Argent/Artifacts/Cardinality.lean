import Argent.Artifacts.Consistency

/-!
# Supported ranges

The shape of the interaction ranges that the artifact check accepts, as its documentation states it.

* `SupportedRanges`      the documented shape of one entry;
* `exists_foldlM_once`      a loop that accepts at most one range;
* `checkCardinality_iff`      **an artifact passes the check when all its entries have the shape**.
-/

set_option linter.unusedSectionVars false

namespace Argent.Artifacts
open Argent.Fallible

/-! ## the documented shape -/

/-- `0 ≤ minimum ≤ maximum` up to the limit -/
def CardinalityArtifact.InBounds (cardinality : CardinalityArtifact) : Prop :=
  ∀ minimum maximum, cardinality = .range minimum maximum →
    0 ≤ minimum ∧ minimum ≤ maximum ∧ maximum ≤ maxEntryRangeCardinality

/-- at most one range among some cardinalities, every one of them in bounds -/
structure AtMostOneRange (cardinalities : List CardinalityArtifact) : Prop where
  inBounds : ∀ cardinality ∈ cardinalities, cardinality.InBounds
  once : cardinalities.countP (·.isRange) ≤ 1

def EmitArtifact.items : EmitArtifact → List EmitOutputArtifact
  | .none => []
  | .outputs items => items

structure SupportedRanges (entry : EntryArtifact) : Prop where
  leader : entry.kind = .leader → AtMostOneRange (entry.consumes.map (·.cardinality))
  delegate : entry.kind = .delegate → ∀ consume ∈ entry.consumes, consume.cardinality = .one
  emits : AtMostOneRange (entry.emits.items.map (·.cardinality))
  emitActor : ∀ output ∈ entry.emits.items, output.cardinality.isRange = true →
    output.actors.length = 1
  observes : ∀ observe ∈ entry.observes, ∀ actor ∈ observe.inputs ++ observe.outputs,
    actor.cardinality = .one
  spawns : ∀ spawn ∈ entry.spawns, ∀ output ∈ spawn.outputs, output.cardinality = .one

/-! ## a loop with a flag -/

/-- a loop that marks the first element of a kind and refuses a second one -/
theorem exists_foldlM_once {ε α : Type} {step : Bool → α → Except ε Bool} {marked : α → Bool}
    {good : α → Prop} (hstep : ∀ flag a out, step flag a = .ok out ↔
      good a ∧ ¬ (flag = true ∧ marked a = true) ∧ out = (flag || marked a)) (l : List α) :
    (∃ out, l.foldlM step false = .ok out) ↔ (∀ a ∈ l, good a) ∧ l.countP marked ≤ 1 := by
  suffices hgen : ∀ flag, (∃ out, l.foldlM step flag = .ok out) ↔
      (∀ a ∈ l, good a) ∧ l.countP marked + flag.toNat ≤ 1 from hgen false
  induction l with
  | nil =>
    intro flag
    refine ⟨fun _ => ⟨fun _ h => absurd h List.not_mem_nil, ?_⟩, fun _ => ⟨flag, rfl⟩⟩
    rw [List.countP_nil, Nat.zero_add]
    exact Bool.toNat_le flag
  | cons a l ih =>
    intro flag
    have hcons : (∃ out, (a :: l).foldlM step flag = .ok out) ↔
        (good a ∧ ¬ (flag = true ∧ marked a = true)) ∧
          ∃ out, l.foldlM step (flag || marked a) = .ok out := by
      constructor
      · rintro ⟨out, h⟩
        rw [List.foldlM_cons, bind_eq_ok] at h
        obtain ⟨mid, hmid, h⟩ := h
        obtain ⟨hgood, hnew, rfl⟩ := (hstep flag a mid).mp hmid
        exact ⟨⟨hgood, hnew⟩, out, h⟩
      · rintro ⟨⟨hgood, hnew⟩, out, h⟩
        refine ⟨out, ?_⟩
        rw [List.foldlM_cons, (hstep flag a _).mpr ⟨hgood, hnew, rfl⟩]
        exact h
    rw [hcons, ih, List.forall_mem_cons, List.countP_cons]
    cases flag <;> cases marked a <;> simp <;> tauto

/-! ## one interaction -/

section
variable {actor entry clause handle : String} {cardinality : CardinalityArtifact}

theorem checkRange_ok : checkRange actor entry clause handle cardinality = .ok ⟨⟩ ↔
    cardinality.InBounds := by
  unfold checkRange CardinalityArtifact.InBounds
  cases cardinality with
  | one => exact ⟨fun _ _ _ h => (nomatch h), fun _ => rfl⟩
  | range minimum maximum =>
    rw [rejectIf_eq_ok]
    constructor
    · rintro h minimum' maximum' heq
      cases heq
      omega
    · intro h
      have := h minimum maximum rfl
      omega

theorem isRange_eq_false : cardinality.isRange = false ↔ cardinality = .one := by
  cases cardinality with
  | one => exact ⟨fun _ => rfl, fun _ => rfl⟩
  | range minimum maximum => exact ⟨fun h => (by cases h), fun h => (by cases h)⟩

theorem rejectUnsupportedRange_ok :
    rejectUnsupportedRange actor entry clause handle cardinality = .ok ⟨⟩ ↔
      cardinality = .one := by
  unfold rejectUnsupportedRange
  rw [check_eq_ok, checkRange_ok, rejectIf_eq_ok, Bool.not_eq_true, isRange_eq_false]
  refine ⟨fun h => h.2, fun h => ⟨?_, h⟩⟩
  intro minimum maximum hrange
  rw [h] at hrange
  cases hrange

end

section
variable (actor entry : String)

theorem checkConsume_leader (flag : Bool) (consume : ConsumeArtifact) (out : Bool) :
    checkConsume actor entry .leader flag consume = .ok out ↔
      consume.cardinality.InBounds ∧ ¬ (flag = true ∧ consume.cardinality.isRange = true) ∧
        out = (flag || consume.cardinality.isRange) := by
  unfold checkConsume
  dsimp only
  rw [check_eq_ok, checkRange_ok]
  refine and_congr_right fun _ => ?_
  cases hcard : consume.cardinality with
  | one =>
    rw [pure_eq_ok]
    unfold CardinalityArtifact.isRange
    simp [eq_comm]
  | range minimum maximum =>
    cases flag with
    | false =>
      show (pure true : Except ArtifactCardinalityError Bool) = .ok out ↔ _
      rw [pure_eq_ok]
      unfold CardinalityArtifact.isRange
      simp [eq_comm]
    | true =>
      show (rejectUnsupportedRange actor entry "consume" consume.name
        (.range minimum maximum) >>= fun _ => pure true) = .ok out ↔ _
      rw [check_eq_ok, rejectUnsupportedRange_ok]
      unfold CardinalityArtifact.isRange
      simp

theorem checkConsume_delegate (flag : Bool) (consume : ConsumeArtifact) (out : Bool) :
    checkConsume actor entry .delegate flag consume = .ok out ↔
      consume.cardinality = .one ∧ out = flag := by
  unfold checkConsume
  dsimp only
  rw [check_eq_ok, rejectUnsupportedRange_ok, pure_eq_ok]
  exact and_congr_right fun _ => eq_comm

theorem checkEmit_ok (flag : Bool) (output : EmitOutputArtifact) (out : Bool) :
    checkEmit actor entry flag output = .ok out ↔
      (output.cardinality.InBounds ∧
        (output.cardinality.isRange = true → output.actors.length = 1)) ∧
      ¬ (flag = true ∧ output.cardinality.isRange = true) ∧
        out = (flag || output.cardinality.isRange) := by
  unfold checkEmit
  dsimp only
  rw [check_eq_ok, checkRange_ok, and_assoc]
  refine and_congr_right fun _ => ?_
  cases hcard : output.cardinality with
  | one =>
    rw [pure_eq_ok]
    unfold CardinalityArtifact.isRange
    simp [eq_comm]
  | range minimum maximum =>
    dsimp only
    by_cases hbad : flag = true ∨ output.actors.length ≠ 1
    · rw [if_pos hbad]
      show (rejectUnsupportedRange actor entry "emit" output.name
        (.range minimum maximum) >>= fun _ => pure true) = .ok out ↔ _
      rw [check_eq_ok, rejectUnsupportedRange_ok]
      unfold CardinalityArtifact.isRange
      constructor
      · rintro ⟨h, -⟩
        cases h
      · rintro ⟨hone, hnew, -⟩
        obtain hflag | hmany := hbad
        · exact absurd ⟨hflag, rfl⟩ hnew
        · exact absurd (hone rfl) hmany
    · rw [if_neg hbad]
      show (pure true : Except ArtifactCardinalityError Bool) = .ok out ↔ _
      rw [pure_eq_ok]
      rw [not_or, Bool.not_eq_true, not_not] at hbad
      obtain ⟨rfl, hone⟩ := hbad
      unfold CardinalityArtifact.isRange
      simp [hone, eq_comm]

end

/-! ## one entry -/

theorem exists_foldlM_all {ε α : Type} {step : Bool → α → Except ε Bool} {good : α → Prop}
    (hstep : ∀ flag a out, step flag a = .ok out ↔ good a ∧ out = flag) (l : List α) (flag : Bool) :
    (∃ out, l.foldlM step flag = .ok out) ↔ ∀ a ∈ l, good a := by
  induction l with
  | nil => exact ⟨fun _ _ h => absurd h List.not_mem_nil, fun _ => ⟨flag, rfl⟩⟩
  | cons a l ih =>
    rw [List.forall_mem_cons, ← ih]
    constructor
    · rintro ⟨out, h⟩
      rw [List.foldlM_cons, bind_eq_ok] at h
      obtain ⟨mid, hmid, h⟩ := h
      obtain ⟨hgood, rfl⟩ := (hstep flag a mid).mp hmid
      exact ⟨hgood, out, h⟩
    · rintro ⟨hgood, out, h⟩
      refine ⟨out, ?_⟩
      rw [List.foldlM_cons, (hstep flag a flag).mpr ⟨hgood, rfl⟩]
      exact h

theorem atMostOneRange_map {α : Type} {cardinality : α → CardinalityArtifact} {l : List α} :
    AtMostOneRange (l.map cardinality) ↔ (∀ a ∈ l, (cardinality a).InBounds) ∧
      l.countP (fun a => (cardinality a).isRange) ≤ 1 := by
  constructor
  · rintro ⟨hbounds, honce⟩
    rw [List.countP_map] at honce
    exact ⟨fun a ha => hbounds _ (List.mem_map_of_mem ha), honce⟩
  · rintro ⟨hbounds, honce⟩
    refine ⟨fun c hc => ?_, ?_⟩
    · obtain ⟨a, ha, rfl⟩ := List.mem_map.mp hc
      exact hbounds a ha
    · rw [List.countP_map]
      exact honce

theorem exists_checkConsume {actor entry : String} {kind : EntryKindArtifact}
    {consumes : List ConsumeArtifact} :
    (∃ flag, consumes.foldlM (checkConsume actor entry kind) false = .ok flag) ↔
      (kind = .leader → AtMostOneRange (consumes.map (·.cardinality))) ∧
      (kind = .delegate → ∀ consume ∈ consumes, consume.cardinality = .one) := by
  cases kind with
  | leader =>
    refine (exists_foldlM_once (checkConsume_leader actor entry) consumes).trans ?_
    rw [atMostOneRange_map]
    exact ⟨fun h => ⟨fun _ => h, fun h => (nomatch h)⟩, fun h => h.1 rfl⟩
  | delegate =>
    refine (exists_foldlM_all (checkConsume_delegate actor entry) consumes false).trans ?_
    exact ⟨fun h => ⟨fun h => (nomatch h), fun _ => h⟩, fun h => h.2 rfl⟩

theorem exists_checkEmit {actor entry : String} {outputs : List EmitOutputArtifact} :
    (∃ flag, outputs.foldlM (checkEmit actor entry) false = .ok flag) ↔
      AtMostOneRange (outputs.map (·.cardinality)) ∧
      ∀ output ∈ outputs, output.cardinality.isRange = true → output.actors.length = 1 := by
  refine (exists_foldlM_once (checkEmit_ok actor entry) outputs).trans ?_
  rw [atMostOneRange_map, and_right_comm, ← forall₂_and]

theorem bind_const_eq_ok {ε α β : Type} {x : Except ε α} {y : Except ε β} {b : β} :
    (x >>= fun _ => y) = .ok b ↔ (∃ a, x = .ok a) ∧ y = .ok b := by
  rw [bind_eq_ok, exists_and_right]

theorem checkForeign_ok (actor : ActorArtifact) (entry : EntryArtifact) :
    (entry.observes.forM (fun observe => do
        observe.inputs.forM fun input => rejectUnsupportedRange actor.name entry.name
          "observed input" (observe.name ++ "." ++ input.name) input.cardinality
        observe.outputs.forM fun output => rejectUnsupportedRange actor.name entry.name
          "observed output" (observe.name ++ "." ++ output.name) output.cardinality) >>= fun _ =>
      entry.spawns.forM fun spawn => spawn.outputs.forM fun output =>
        rejectUnsupportedRange actor.name entry.name "spawn output"
          (spawn.name ++ "." ++ output.name) output.cardinality) =
        (.ok ⟨⟩ : Except ArtifactCardinalityError PUnit.{1}) ↔
      (∀ observe ∈ entry.observes, ∀ other ∈ observe.inputs ++ observe.outputs,
        other.cardinality = .one) ∧
      ∀ spawn ∈ entry.spawns, ∀ output ∈ spawn.outputs, output.cardinality = .one := by
  rw [check_eq_ok, forM_eq_ok, forM_eq_ok]
  refine and_congr (forall₂_congr fun observe _ => ?_) (forall₂_congr fun spawn _ => ?_)
  · rw [check_eq_ok, forM_eq_ok, forM_eq_ok, List.forall_mem_append]
    simp only [rejectUnsupportedRange_ok]
  · rw [forM_eq_ok]
    simp only [rejectUnsupportedRange_ok]

/-- the check accepts an entry when its ranges have the documented shape -/
theorem checkEntryCardinality_iff {actor : ActorArtifact} {entry : EntryArtifact} :
    checkEntryCardinality actor entry = (.ok ⟨⟩ : Except ArtifactCardinalityError PUnit.{1}) ↔
      SupportedRanges entry := by
  have hemits : (∀ output ∈ entry.emits.items, output.cardinality.isRange = true →
      output.actors.length = 1) ∧ AtMostOneRange (entry.emits.items.map (·.cardinality)) ↔
      ∃ flag, entry.emits.items.foldlM (checkEmit actor.name entry.name) false = .ok flag := by
    rw [exists_checkEmit, and_comm]
  have hcheck : checkEntryCardinality actor entry =
        (.ok ⟨⟩ : Except ArtifactCardinalityError PUnit.{1}) ↔
      (∃ flag, entry.consumes.foldlM (checkConsume actor.name entry.name entry.kind) false =
        .ok flag) ∧
      (∃ flag, entry.emits.items.foldlM (checkEmit actor.name entry.name) false = .ok flag) ∧
      (∀ observe ∈ entry.observes, ∀ other ∈ observe.inputs ++ observe.outputs,
        other.cardinality = .one) ∧
      ∀ spawn ∈ entry.spawns, ∀ output ∈ spawn.outputs, output.cardinality = .one := by
    unfold checkEntryCardinality
    rw [bind_const_eq_ok, ← checkForeign_ok actor entry]
    refine and_congr_right fun _ => ?_
    cases entry.emits with
    | none => exact ⟨fun h => ⟨⟨false, rfl⟩, h⟩, fun h => h.2⟩
    | outputs outputs => exact bind_const_eq_ok
  rw [hcheck, exists_checkConsume, ← hemits]
  constructor
  · rintro ⟨⟨hleader, hdelegate⟩, ⟨hactor, hemits⟩, hobserves, hspawns⟩
    exact ⟨hleader, hdelegate, hemits, hactor, hobserves, hspawns⟩
  · rintro ⟨hleader, hdelegate, hemits, hactor, hobserves, hspawns⟩
    exact ⟨⟨hleader, hdelegate⟩, ⟨hactor, hemits⟩, hobserves, hspawns⟩

theorem checkCardinality_iff {artifact : Artifact} :
    artifact.checkCardinality = (.ok ⟨⟩ : Except ArtifactCardinalityError PUnit.{1}) ↔
      ∀ actor ∈ artifact.argent.actors, ∀ entry ∈ actor.entries, SupportedRanges entry := by
  unfold Artifact.checkCardinality
  rw [forM_eq_ok]
  refine forall₂_congr fun actor _ => ?_
  rw [forM_eq_ok]
  exact forall₂_congr fun entry _ => checkEntryCardinality_iff

end Argent.Artifacts
