import Argent.Artifacts.Artifact
import Argent.Base.Fallible
import Mathlib.Data.List.Sort

/-!
# Template frames

The check that the actors of one artifact cannot be confused: their compiled frames, cut at the
state spans of their contracts, must not clash.

* `ActorFrame.conflictsWith`, `extractFrame`, `verifyTemplateFrames`      the check;
* `conflictsWith_iff`      a conflict is a clash of frames;
* `verifyTemplateFrames_disjoint`      **no script is accepted by two actors of a checked artifact**.
-/

set_option linter.unusedSectionVars false

namespace Argent.Artifacts
open Argent.Fallible Argent.Sil

/-! ## the check -/

structure TemplateFrameLengths where
  leading : Nat
  state : Nat
  trailing : Nat
  total : Nat
deriving DecidableEq, Repr

inductive TemplateFrameVerificationError where
  | missingContract (actor contract : String)
  | invalidStateSpan (actor contract : String) (offset stateLen totalLen : Nat)
  | ambiguous (firstActor : String) (firstFrame : TemplateFrameLengths) (secondActor : String)
      (secondFrame : TemplateFrameLengths)
deriving DecidableEq, Repr

structure ActorFrame where
  actor : String
  leading : Bytes
  stateLen : Nat
  trailing : Bytes
  totalLen : Nat
deriving DecidableEq, Repr

def ActorFrame.lengths (frame : ActorFrame) : TemplateFrameLengths where
  leading := frame.leading.length
  state := frame.stateLen
  trailing := frame.trailing.length
  total := frame.totalLen

def ActorFrame.conflictsWith (frame other : ActorFrame) : Bool :=
  frame.totalLen == other.totalLen &&
    (other.leading.isPrefixOf frame.leading || frame.leading.isPrefixOf other.leading) &&
    (other.trailing.isSuffixOf frame.trailing || frame.trailing.isSuffixOf other.trailing)

/-- `usize::checked_add` -/
def checkedAdd (a b : Nat) : Option Nat :=
  if a + b < 2 ^ 64 then some (a + b) else none

def extractFrame (actor : ActorArtifact) (contract : SilContractArtifact) :
    Except TemplateFrameVerificationError ActorFrame :=
  let compiled := contract.compiled
  let offset := compiled.stateSpan.offset
  let stateLen := compiled.stateSpan.len
  let totalLen := compiled.bytecode.length
  match (checkedAdd offset stateLen).filter (· ≤ totalLen) with
  | none => .error (.invalidStateSpan actor.name actor.abi.contract offset stateLen totalLen)
  | some stateEnd => .ok
      { actor := actor.name
        leading := compiled.bytecode.take offset
        stateLen := stateLen
        trailing := compiled.bytecode.drop stateEnd
        totalLen := totalLen }

def actorFrame (artifact : Artifact) (actor : ActorArtifact) :
    Except TemplateFrameVerificationError ActorFrame :=
  match artifact.silAbi.contract actor.abi.contract with
  | none => .error (.missingContract actor.name actor.abi.contract)
  | some contract => extractFrame actor contract

def verifyPair (first second : ActorFrame) : Except TemplateFrameVerificationError PUnit :=
  if first.conflictsWith second then
    .error (.ambiguous first.actor first.lengths second.actor second.lengths)
  else .ok ⟨⟩

/-- every frame against every later one -/
def verifyFrames : List ActorFrame → Except TemplateFrameVerificationError PUnit
  | [] => .ok ⟨⟩
  | first :: rest => do
    rest.forM (verifyPair first)
    verifyFrames rest

def verifyTemplateFrames (artifact : Artifact) : Except TemplateFrameVerificationError PUnit := do
  let actors := artifact.argent.actors.insertionSort fun left right => left.name ≤ right.name
  let frames ← actors.mapM (actorFrame artifact)
  verifyFrames frames

/-! ## what it guarantees -/

def ActorFrame.toFrame (frame : ActorFrame) : Frame UInt8 where
  leading := frame.leading
  width := frame.stateLen
  trailing := frame.trailing

theorem conflictsWith_iff {first second : ActorFrame}
    (hfirst : first.toFrame.total = first.totalLen)
    (hsecond : second.toFrame.total = second.totalLen) :
    first.conflictsWith second = true ↔ first.toFrame.Clash second.toFrame := by
  unfold ActorFrame.conflictsWith Frame.Clash
  rw [hfirst, hsecond]
  simp only [Bool.and_eq_true, Bool.or_eq_true, beq_iff_eq, List.isPrefixOf_iff_prefix,
    List.isSuffixOf_iff_suffix, ActorFrame.toFrame, and_assoc]

theorem checkedAdd_eq_some {a b c : Nat} (h : checkedAdd a b = some c) : c = a + b := by
  unfold checkedAdd at h
  split_ifs at h
  exact (Option.some.inj h).symm

theorem extractFrame_ok {actor : ActorArtifact} {contract : SilContractArtifact}
    {frame : ActorFrame} (h : extractFrame actor contract = .ok frame) :
    contract.compiled.stateSpan.offset + contract.compiled.stateSpan.len ≤
        contract.compiled.bytecode.length ∧
      frame.toFrame = contract.compiled.frame ∧
      frame.totalLen = contract.compiled.bytecode.length := by
  unfold extractFrame at h
  dsimp only at h
  split at h
  next => exact absurd h (by simp)
  next stateEnd heq =>
    obtain ⟨hadd, hle⟩ := Option.filter_eq_some_iff.mp heq
    have hend := checkedAdd_eq_some hadd
    have hframe := Except.ok.inj h
    subst hend
    subst hframe
    exact ⟨of_decide_eq_true hle, rfl, rfl⟩

/-- the contract that an actor's ABI names, with its state span inside the code -/
structure Framed (artifact : Artifact) (actor : ActorArtifact) (contract : SilContractArtifact) :
    Prop where
  contract_eq : artifact.silAbi.contract actor.abi.contract = some contract
  span_le : contract.compiled.stateSpan.offset + contract.compiled.stateSpan.len ≤
    contract.compiled.bytecode.length

theorem actorFrame_ok {artifact : Artifact} {actor : ActorArtifact} {frame : ActorFrame}
    (h : actorFrame artifact actor = .ok frame) :
    ∃ contract, Framed artifact actor contract ∧ frame.toFrame = contract.compiled.frame ∧
      frame.totalLen = contract.compiled.bytecode.length := by
  unfold actorFrame at h
  split at h
  next => exact absurd h (by simp)
  next contract hc =>
    obtain ⟨hspan, hframe, htotal⟩ := extractFrame_ok h
    exact ⟨contract, ⟨hc, hspan⟩, hframe, htotal⟩

theorem verifyPair_ok {first second : ActorFrame} (h : verifyPair first second = .ok ⟨⟩) :
    first.conflictsWith second = false := by
  unfold verifyPair at h
  split_ifs at h with hc
  exact Bool.eq_false_iff.mpr hc

theorem verifyFrames_ok {frames : List ActorFrame} (h : verifyFrames frames = .ok ⟨⟩) :
    frames.Pairwise fun first second => first.conflictsWith second = false := by
  induction frames with
  | nil => exact .nil
  | cons first rest ih =>
    obtain ⟨_, hfirst, hrest⟩ := bind_eq_ok.mp h
    refine .cons (fun second hsecond => ?_) (ih hrest)
    exact verifyPair_ok (forM_ok_of_mem hfirst hsecond)

/-- no script is accepted by the frames of the contracts of both actors -/
def ScriptsDisjoint (artifact : Artifact) (first second : ActorArtifact) : Prop :=
  ∀ firstContract secondContract, artifact.silAbi.contract first.abi.contract = some firstContract →
    artifact.silAbi.contract second.abi.contract = some secondContract →
    ∀ script, ¬ (firstContract.compiled.frame.Accepts script ∧
      secondContract.compiled.frame.Accepts script)

theorem ScriptsDisjoint.symm {artifact : Artifact} {first second : ActorArtifact}
    (h : ScriptsDisjoint artifact first second) : ScriptsDisjoint artifact second first :=
  fun _ _ hsecond hfirst script hs => h _ _ hfirst hsecond script hs.symm

theorem disjoint_of_not_conflict {artifact : Artifact} {first second : ActorArtifact}
    {firstFrame secondFrame : ActorFrame} (hfirst : actorFrame artifact first = .ok firstFrame)
    (hsecond : actorFrame artifact second = .ok secondFrame)
    (h : firstFrame.conflictsWith secondFrame = false) : ScriptsDisjoint artifact first second := by
  intro firstContract secondContract hfc hsc script hs
  obtain ⟨fc, hf, hff, hft⟩ := actorFrame_ok hfirst
  obtain ⟨sc, hss, hsf, hst⟩ := actorFrame_ok hsecond
  have hfeq : fc = firstContract := Option.some.inj (hf.contract_eq.symm.trans hfc)
  have hseq : sc = secondContract := Option.some.inj (hss.contract_eq.symm.trans hsc)
  subst hfeq
  subst hseq
  have hclash : firstFrame.toFrame.Clash secondFrame.toFrame := by
    rw [hff, hsf]
    exact Frame.clash_of_accepts hs.1 hs.2
  have hconflict : firstFrame.conflictsWith secondFrame = true := by
    refine (conflictsWith_iff ?_ ?_).mpr hclash
    · rw [hff, hft]
      exact CompiledContractArtifact.frame_total hf.span_le
    · rw [hsf, hst]
      exact CompiledContractArtifact.frame_total hss.span_le
  rw [h] at hconflict
  exact absurd hconflict (by simp)

theorem verifyTemplateFrames_framed {artifact : Artifact}
    (h : verifyTemplateFrames artifact = .ok ⟨⟩) {actor : ActorArtifact}
    (hactor : actor ∈ artifact.argent.actors) : ∃ contract, Framed artifact actor contract := by
  obtain ⟨frames, hframes, -⟩ := bind_eq_ok.mp h
  obtain ⟨frame, -, hframe⟩ := mapM_ok_of_mem hframes ((List.mem_insertionSort _).mpr hactor)
  obtain ⟨contract, hc, -, -⟩ := actorFrame_ok hframe
  exact ⟨contract, hc⟩

theorem verifyTemplateFrames_pairwise {artifact : Artifact}
    (h : verifyTemplateFrames artifact = .ok ⟨⟩) :
    artifact.argent.actors.Pairwise (ScriptsDisjoint artifact) := by
  obtain ⟨frames, hframes, hchecked⟩ := bind_eq_ok.mp h
  have hsorted := pairwise_of_forall₂ (mapM_ok hframes) (verifyFrames_ok hchecked)
    fun _ _ _ _ => disjoint_of_not_conflict
  exact ((List.perm_insertionSort _ _).pairwise_iff fun h => ScriptsDisjoint.symm h).mp hsorted

/-- actors at different positions of a checked artifact have frames with no script in common, and
each of them has a contract whose state span lies inside its code -/
theorem verifyTemplateFrames_disjoint (artifact : Artifact)
    (h : verifyTemplateFrames artifact = .ok ⟨⟩) (i j : Nat) (hij : i ≠ j)
    (first second : ActorArtifact) (hi : artifact.argent.actors[i]? = some first)
    (hj : artifact.argent.actors[j]? = some second) :
    ∃ firstContract secondContract, Framed artifact first firstContract ∧
      Framed artifact second secondContract ∧
      ∀ script, ¬ (firstContract.compiled.frame.Accepts script ∧
        secondContract.compiled.frame.Accepts script) := by
  obtain ⟨firstContract, hfirst⟩ := verifyTemplateFrames_framed h (List.mem_of_getElem? hi)
  obtain ⟨secondContract, hsecond⟩ := verifyTemplateFrames_framed h (List.mem_of_getElem? hj)
  have hpair := List.pairwise_iff_getElem.mp (verifyTemplateFrames_pairwise h)
  obtain ⟨hilt, rfl⟩ := List.getElem?_eq_some_iff.mp hi
  obtain ⟨hjlt, rfl⟩ := List.getElem?_eq_some_iff.mp hj
  refine ⟨firstContract, secondContract, hfirst, hsecond, ?_⟩
  obtain hlt | hlt := Nat.lt_or_gt_of_ne hij
  · exact hpair i j hilt hjlt hlt _ _ hfirst.contract_eq hsecond.contract_eq
  · exact (hpair j i hjlt hilt hlt).symm _ _ hfirst.contract_eq hsecond.contract_eq

/-! ## a sample -/

/-- one byte of state between a two-byte prefix and a one-byte suffix -/
def framedContract (byte : UInt8) : SilContractArtifact where
  runtimeState := ⟨"State", []⟩
  entries := ∅
  compiled := ⟨[1, byte, 0, 9], Digest.repeated byte, ⟨2, 1⟩⟩

def framedActor (name : String) : ActorArtifact := ⟨name, "State", ⟨name⟩, [], []⟩

def framedSample : Artifact :=
  { Artifact.blank with
    argent := { Artifact.blank.argent with actors := [framedActor "B", framedActor "A"] }
    silAbi := { Artifact.blank.silAbi with
      contracts := (BTreeMap.insert "A" (framedContract 2) ∅).insert "B" (framedContract 3) } }

/-- two actors told apart by the second byte of their prefixes -/
theorem verifyTemplateFrames_disjoint_sample :
    ∃ firstContract secondContract, Framed framedSample (framedActor "B") firstContract ∧
      Framed framedSample (framedActor "A") secondContract ∧
      ∀ script, ¬ (firstContract.compiled.frame.Accepts script ∧
        secondContract.compiled.frame.Accepts script) :=
  verifyTemplateFrames_disjoint framedSample (by decide) 0 1 (by decide) _ _ rfl rfl

end Argent.Artifacts
