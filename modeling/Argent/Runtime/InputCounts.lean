import Argent.Artifacts.Cardinality
import Argent.Runtime.BindSound

/-!
# Input counts of leader actors

A leader entry of a leader actor shares its covenant with the inputs that it consumes and with no
others.  The builder compares the number of inputs of the covenant with the sums of the consumed
cardinalities, before callbacks and scripts run.

* `validateLeaderActorInputCounts`      the comparison, for all inputs of a context;
* `inputCountBounds_eq`      the sums of an accepted entry do not overflow;
* `validateLeaderActorInputCounts_ne`      **no bound context is refused for its sums**.
-/

set_option linter.unusedSectionVars false

namespace Argent.Runtime
open Argent.Fallible Argent.Sil Argent.Artifacts

/-! ## the sums -/

/-- `usize::try_from` -/
def toUsize (n : Int) : Option Nat := if 0 ≤ n ∧ n < 2 ^ 64 then some n.toNat else none

def cardinalityBounds (cardinality : CardinalityArtifact) : Option (Nat × Nat) :=
  match cardinality with
  | .one => some (1, 1)
  | .range minimum maximum =>
    if 0 ≤ minimum ∧ minimum ≤ maximum then do
      let minimum ← toUsize minimum
      let maximum ← toUsize maximum
      some (minimum, maximum)
    else none

def addBounds (bounds : Nat × Nat) (consume : ConsumeArtifact) : Option (Nat × Nat) := do
  let added ← cardinalityBounds consume.cardinality
  let minimum ← checkedAdd bounds.1 added.1
  let maximum ← checkedAdd bounds.2 added.2
  some (minimum, maximum)

/-- how few and how many inputs the covenant has: the leader and what it consumes -/
def inputCountBounds (consumes : List ConsumeArtifact) : Option (Nat × Nat) :=
  consumes.foldlM addBounds (1, 1)

/-! ## the comparison -/

def ResolveInput.covenantId : ResolveInput → Option Digest
  | .actor input => input.source.utxo.covenantId
  | .ordinary input => input.utxo.covenantId

/-- the comparison for an input whose covenant has `found` inputs -/
def validateInputCount (inputIndex : Nat) (input : ResolveActorInput) (found : Nat) :
    BuilderResult PUnit := do
  let actor := input.source.actor.text
  let entry := input.source.entry.name
  let (minimum, maximum) ← okOr (inputCountBounds input.artifactEntry.consumes)
    (.error (.invalidTransition actor entry
      "artifact contains invalid or overflowing consume cardinality"))
  if found < minimum ∨ maximum < found then
    let leaderFor := input.actor.leaderFor.map fun reason => reason.actor ++ "::" ++ reason.entry
    if minimum = maximum then
      fail (.leaderActorInputCountMismatch inputIndex actor entry minimum found leaderFor)
    else
      fail (.leaderActorInputCardinalityMismatch inputIndex actor entry minimum maximum found
        leaderFor)
  else pure ⟨⟩

def validateLeaderActorInputCount (context : ResolveContext) (item : ResolveInput × Nat) :
    BuilderResult PUnit :=
  match item.1 with
  | .ordinary _ => pure ⟨⟩
  | .actor input =>
    if input.artifactEntry.kind ≠ .leader then pure ⟨⟩
    else if input.actor.leaderFor.isEmpty then pure ⟨⟩
    else
      match input.source.utxo.covenantId with
      | none => pure ⟨⟩
      | some covenantId =>
        validateInputCount item.2 input
          (context.inputs.countP fun candidate => candidate.covenantId = some covenantId)

def validateLeaderActorInputCounts (context : ResolveContext) : BuilderResult PUnit :=
  context.inputs.zipIdx.forM (validateLeaderActorInputCount context)

/-! ## sums of an accepted entry -/

/-- the size of a vector is at most `isize::MAX` -/
def FitsVec {α : Type} (l : List α) : Prop := l.length < 2 ^ 63

def minimumCount : CardinalityArtifact → Nat
  | .one => 1
  | .range minimum _ => minimum.toNat

def maximumCount : CardinalityArtifact → Nat
  | .one => 1
  | .range _ maximum => maximum.toNat

/-- how few inputs the consumes stand for, and how many -/
def consumedCounts (consumes : List ConsumeArtifact) : Nat × Nat :=
  ((consumes.map fun consume => minimumCount consume.cardinality).sum,
    (consumes.map fun consume => maximumCount consume.cardinality).sum)

theorem toUsize_of_lt {n : Int} (h : 0 ≤ n) (hlt : n < 2 ^ 64) : toUsize n = some n.toNat :=
  if_pos ⟨h, hlt⟩

theorem checkedAdd_of_lt {a b : Nat} (h : a + b < 2 ^ 64) : checkedAdd a b = some (a + b) :=
  if_pos h

theorem cardinalityBounds_of_inBounds {cardinality : CardinalityArtifact}
    (h : cardinality.InBounds) : cardinalityBounds cardinality =
      some (minimumCount cardinality,
        maximumCount cardinality) := by
  cases cardinality with
  | one => rfl
  | range minimum maximum =>
    obtain ⟨hnonneg, hordered, hlimit⟩ := h minimum maximum rfl
    unfold maxEntryRangeCardinality at hlimit
    unfold cardinalityBounds
    dsimp only
    rw [if_pos ⟨hnonneg, hordered⟩, toUsize_of_lt hnonneg (by omega),
      toUsize_of_lt (by omega) (by omega)]
    rfl

theorem minimumCount_le {cardinality : CardinalityArtifact} (h : cardinality.InBounds) :
    minimumCount cardinality ≤ maximumCount cardinality := by
  cases cardinality with
  | one => exact Nat.le_refl 1
  | range minimum maximum =>
    obtain ⟨_, hordered, _⟩ := h minimum maximum rfl
    exact Int.toNat_le_toNat hordered

/-- a range stands for at most the limit more than one -/
theorem maximumCount_le {cardinality : CardinalityArtifact} (h : cardinality.InBounds) :
    maximumCount cardinality ≤ 1 + 512 * cardinality.isRange.toNat := by
  cases cardinality with
  | one => exact Nat.le_refl 1
  | range minimum maximum =>
    obtain ⟨_, _, hlimit⟩ := h minimum maximum rfl
    unfold maxEntryRangeCardinality at hlimit
    show maximum.toNat ≤ 1 + 512 * 1
    omega

theorem consumedCounts_cons (consume : ConsumeArtifact) (consumes : List ConsumeArtifact) :
    consumedCounts (consume :: consumes) =
      (minimumCount consume.cardinality + (consumedCounts consumes).1,
        maximumCount consume.cardinality + (consumedCounts consumes).2) := by
  unfold consumedCounts
  rw [List.map_cons, List.sum_cons, List.map_cons, List.sum_cons]

theorem consumedCounts_le {consumes : List ConsumeArtifact}
    (h : ∀ consume ∈ consumes, consume.cardinality.InBounds) :
    (consumedCounts consumes).1 ≤ (consumedCounts consumes).2 ∧ (consumedCounts consumes).2 ≤
      consumes.length + 512 * consumes.countP fun consume => consume.cardinality.isRange := by
  induction consumes with
  | nil => exact ⟨Nat.le_refl 0, Nat.le_refl 0⟩
  | cons consume consumes ih =>
    obtain ⟨hconsume, hrest⟩ := List.forall_mem_cons.mp h
    obtain ⟨hle, hmax⟩ := ih hrest
    have hmin := minimumCount_le hconsume
    have hone := maximumCount_le hconsume
    rw [consumedCounts_cons, List.countP_cons, List.length_cons]
    refine ⟨Nat.add_le_add hmin hle, ?_⟩
    show _ + _ ≤ _
    cases hrange : consume.cardinality.isRange with
    | false =>
      rw [hrange, Bool.toNat_false] at hone
      rw [if_neg Bool.false_ne_true]
      omega
    | true =>
      rw [hrange, Bool.toNat_true] at hone
      rw [if_pos rfl]
      omega

theorem foldlM_addBounds {consumes : List ConsumeArtifact} {minimum maximum : Nat}
    (h : ∀ consume ∈ consumes, consume.cardinality.InBounds)
    (hmin : minimum + (consumedCounts consumes).1 < 2 ^ 64)
    (hmax : maximum + (consumedCounts consumes).2 < 2 ^ 64) :
    consumes.foldlM addBounds (minimum, maximum) =
      some (minimum + (consumedCounts consumes).1, maximum + (consumedCounts consumes).2) := by
  induction consumes generalizing minimum maximum with
  | nil => rfl
  | cons consume consumes ih =>
    obtain ⟨hconsume, hrest⟩ := List.forall_mem_cons.mp h
    rw [consumedCounts_cons, ← Nat.add_assoc] at hmin hmax
    have hstep : addBounds (minimum, maximum) consume =
        some (minimum + minimumCount consume.cardinality,
          maximum + maximumCount consume.cardinality) := by
      unfold addBounds
      rw [cardinalityBounds_of_inBounds hconsume, Option.bind_eq_bind, Option.bind_some,
        checkedAdd_of_lt (by omega), Option.bind_eq_bind, Option.bind_some,
        checkedAdd_of_lt (by omega)]
      rfl
    rw [List.foldlM_cons, hstep, consumedCounts_cons, ← Nat.add_assoc, ← Nat.add_assoc]
    exact ih hrest hmin hmax

theorem inputCountBounds_eq {consumes : List ConsumeArtifact}
    (h : AtMostOneRange (consumes.map (·.cardinality))) (hvec : FitsVec consumes) :
    inputCountBounds consumes =
      some (1 + (consumedCounts consumes).1, 1 + (consumedCounts consumes).2) := by
  obtain ⟨hbounds, honce⟩ := atMostOneRange_map.mp h
  obtain ⟨hle, hmax⟩ := consumedCounts_le hbounds
  unfold FitsVec at hvec
  exact foldlM_addBounds hbounds (by omega) (by omega)

/-! ## accepted artifacts -/

/-- a delegate has no range at all -/
theorem atMostOneRange_consumes {entry : EntryArtifact} (h : SupportedRanges entry) :
    AtMostOneRange (entry.consumes.map (·.cardinality)) := by
  cases hkind : entry.kind with
  | leader => exact h.leader hkind
  | delegate =>
    have hones := h.delegate hkind
    refine atMostOneRange_map.mpr ⟨fun consume hconsume => ?_, ?_⟩
    · rw [hones consume hconsume]
      intro minimum maximum hrange
      cases hrange
    · rw [List.countP_eq_zero.mpr]
      · exact Nat.zero_le 1
      · intro consume hconsume
        rw [hones consume hconsume]
        exact Bool.false_ne_true

theorem validateInputCount_ok {inputIndex found minimum maximum : Nat} {input : ResolveActorInput}
    (h : inputCountBounds input.artifactEntry.consumes = some (minimum, maximum)) :
    validateInputCount inputIndex input found = .ok ⟨⟩ ↔ minimum ≤ found ∧ found ≤ maximum := by
  unfold validateInputCount
  rw [h]
  show (if found < minimum ∨ maximum < found then
    if minimum = maximum then _ else _ else (.ok ⟨⟩ : BuilderResult PUnit)) = .ok ⟨⟩ ↔ _
  by_cases hout : found < minimum ∨ maximum < found
  · rw [if_pos hout]
    refine ⟨fun h => ?_, fun h => by omega⟩
    split_ifs at h <;> cases h
  · rw [if_neg hout]
    exact ⟨fun _ => by omega, fun _ => rfl⟩

theorem validateInputCount_ne {inputIndex found minimum maximum : Nat} {input : ResolveActorInput}
    (h : inputCountBounds input.artifactEntry.consumes = some (minimum, maximum))
    (actor entry message : String) :
    validateInputCount inputIndex input found ≠
      .error (.error (.invalidTransition actor entry message)) := by
  unfold validateInputCount
  rw [h]
  show (if found < minimum ∨ maximum < found then _ else (.ok ⟨⟩ : BuilderResult PUnit)) ≠ _
  split_ifs
  · exact fun h => by cases h
  · exact fun h => by cases h
  · exact fun h => by cases h

/-- the consumed inputs of every entry form a vector -/
def Artifact.FitsVecs (artifact : Artifact) : Prop :=
  ∀ actor ∈ artifact.argent.actors, ∀ entry ∈ actor.entries, FitsVec entry.consumes

theorem inputCountBounds_of_accepted {artifact : Artifact}
    (h : artifact.checkCardinality = (.ok ⟨⟩ : Except ArtifactCardinalityError PUnit.{1}))
    (hvecs : Artifact.FitsVecs artifact) {actor : ActorArtifact}
    (hactor : actor ∈ artifact.argent.actors) {entry : EntryArtifact}
    (hentry : entry ∈ actor.entries) : inputCountBounds entry.consumes =
      some (1 + (consumedCounts entry.consumes).1, 1 + (consumedCounts entry.consumes).2) := by
  rw [checkCardinality_iff] at h
  exact inputCountBounds_eq (atMostOneRange_consumes (h actor hactor entry hentry))
    (hvecs actor hactor entry hentry)

/-! ## bound contexts -/

section
variable {crates : RuntimeCrates} {builder : TxBuilder crates}

theorem bindInput_entry {input : ContextInput} {found : ResolveActorInput}
    (h : builder.bindInput input = .ok (.actor found)) :
    ∃ appAlias, builder.bundle.apps.get appAlias = some found.artifact ∧
      found.actor ∈ found.artifact.argent.actors ∧ found.artifactEntry ∈ found.actor.entries := by
  cases input with
  | ordinary input => cases h
  | actor input =>
    obtain ⟨contractRef, hcontract, h⟩ := bind_eq_ok.mp h
    obtain ⟨actorRef, hactor, h⟩ := bind_eq_ok.mp h
    obtain ⟨entry, hentry, h⟩ := bind_eq_ok.mp h
    obtain ⟨silEntry, -, h⟩ := bind_eq_ok.mp h
    obtain rfl := ResolveInput.actor.inj (pure_eq_ok.mp h)
    obtain ⟨artifact, hartifact, hcontract⟩ := bind_eq_ok.mp hcontract
    obtain ⟨contract, -, hcontract⟩ := bind_eq_ok.mp hcontract
    obtain rfl := pure_eq_ok.mp hcontract
    obtain ⟨actor, hnamed, hactor⟩ := bind_eq_ok.mp hactor
    obtain rfl := pure_eq_ok.mp hactor
    refine ⟨_, okOr_eq_ok.mp hartifact, ?_, ?_⟩
    · exact List.mem_of_find?_eq_some (okOr_eq_ok.mp hnamed)
    · exact List.mem_of_find?_eq_some (okOr_eq_ok.mp hentry)

/-- **No bound context is refused for its sums.** -/
theorem validateLeaderActorInputCounts_ne {context : TxContext} {bound : ResolveContext}
    (h : builder.bindContext context = .ok bound)
    (hvecs : ∀ appAlias artifact, builder.bundle.apps.get appAlias = some artifact →
      Artifact.FitsVecs artifact) (actor entry message : String) :
    validateLeaderActorInputCounts bound ≠
      .error (.error (.invalidTransition actor entry message)) := by
  obtain ⟨boundOutputs, groups, stateContext, hphases⟩ := TxBuilder.bindContext_phases h
  intro herror
  obtain ⟨⟨input, inputIndex⟩, hitem, herror⟩ := forM_error herror
  obtain ⟨source, -, hbind⟩ := mem_of_mapM_ok hphases.inputs_ok
    (List.mem_of_getElem? (List.mem_zipIdx_iff_getElem?.mp hitem))
  unfold validateLeaderActorInputCount at herror
  cases input with
  | ordinary input => cases herror
  | actor input =>
    dsimp only at herror
    split_ifs at herror with hkind hleader
    · cases herror
    · cases herror
    cases hid : input.source.utxo.covenantId with
    | none =>
      rw [hid] at herror
      cases herror
    | some covenantId =>
      rw [hid] at herror
      obtain ⟨appAlias, hartifact, hactor, hentry⟩ := bindInput_entry hbind
      have hconsistent := checkConsistency_ok
        (builder.bundle.attached appAlias input.artifact hartifact).consistent
      have hbounds := inputCountBounds_of_accepted hconsistent.cardinality
        (hvecs appAlias input.artifact hartifact) hactor hentry
      exact validateInputCount_ne hbounds actor entry message herror

end

end Argent.Runtime
