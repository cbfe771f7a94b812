import Argent.Artifacts.TemplateFrames
import Argent.Artifacts.TemplatePlan

/-!
# Consistency of an artifact

The check that a consumer runs on an artifact before using it.

* `Artifact.checkConsistency`      versions, ABI, frames, template plan, cardinalities and identity;
* `checkConsistency_ok`      what a consistent artifact has passed.
-/

set_option linter.unusedSectionVars false

namespace Argent.Artifacts
open Argent.Fallible

def artifactSchemaVersion : Nat := 1

/-! ## cardinalities -/

def maxEntryRangeCardinality : Int := 512

inductive ArtifactCardinalityError where
  | invalidRange (actor entry clause handle : String) (minimum maximum : Int)
  | unsupportedRange (actor entry clause handle : String)
deriving DecidableEq, Repr

def CardinalityArtifact.isRange : CardinalityArtifact → Bool
  | .one => false
  | .range _ _ => true

section
variable (actor entry : String)

/-- the bounds of a range -/
def checkRange (clause handle : String) (cardinality : CardinalityArtifact) :
    Except ArtifactCardinalityError PUnit :=
  match cardinality with
  | .one => .ok ⟨⟩
  | .range minimum maximum =>
    rejectIf (minimum < 0 ∨ minimum > maximum ∨ maximum > maxEntryRangeCardinality)
      (.invalidRange actor entry clause handle minimum maximum)

def rejectUnsupportedRange (clause handle : String) (cardinality : CardinalityArtifact) :
    Except ArtifactCardinalityError PUnit := do
  checkRange actor entry clause handle cardinality
  rejectIf (cardinality.isRange = true) (.unsupportedRange actor entry clause handle)

/-- the flag tells whether a consume before this one has a range -/
def checkConsume (kind : EntryKindArtifact) (hasConsumeRange : Bool) (consume : ConsumeArtifact) :
    Except ArtifactCardinalityError Bool := do
  match kind with
  | .delegate =>
    rejectUnsupportedRange actor entry "delegate consume" consume.name consume.cardinality
    pure hasConsumeRange
  | .leader =>
    checkRange actor entry "consume" consume.name consume.cardinality
    match consume.cardinality with
    | .one => pure hasConsumeRange
    | .range _ _ =>
      if hasConsumeRange then
        rejectUnsupportedRange actor entry "consume" consume.name consume.cardinality
      pure true

/-- the flag tells whether an emit before this one has a range -/
def checkEmit (hasEmitRange : Bool) (output : EmitOutputArtifact) :
    Except ArtifactCardinalityError Bool := do
  checkRange actor entry "emit" output.name output.cardinality
  match output.cardinality with
  | .one => pure hasEmitRange
  | .range _ _ =>
    if hasEmitRange ∨ output.actors.length ≠ 1 then
      rejectUnsupportedRange actor entry "emit" output.name output.cardinality
    pure true

end

def checkEntryCardinality (actor : ActorArtifact) (entry : EntryArtifact) :
    Except ArtifactCardinalityError PUnit := do
  let _ ← entry.consumes.foldlM (checkConsume actor.name entry.name entry.kind) false
  match entry.emits with
  | .none => pure ⟨⟩
  | .outputs outputs =>
    let _ ← outputs.foldlM (checkEmit actor.name entry.name) false
  entry.observes.forM fun observe => do
    observe.inputs.forM fun input => rejectUnsupportedRange actor.name entry.name "observed input"
      (observe.name ++ "." ++ input.name) input.cardinality
    observe.outputs.forM fun output => rejectUnsupportedRange actor.name entry.name
      "observed output" (observe.name ++ "." ++ output.name) output.cardinality
  entry.spawns.forM fun spawn =>
    spawn.outputs.forM fun output => rejectUnsupportedRange actor.name entry.name "spawn output"
      (spawn.name ++ "." ++ output.name) output.cardinality

def Artifact.checkCardinality (artifact : Artifact) : Except ArtifactCardinalityError PUnit :=
  artifact.argent.actors.forM fun actor =>
    actor.entries.forM (checkEntryCardinality actor)

/-! ## identity -/

inductive ArtifactIdentityError where
  | missingArtifactId (app : String)
  | artifactIdMismatch (app expected found : String)
  | serialize (subject source : String)
deriving DecidableEq, Repr

/-- the hash of the artifact without its id and without the paths of its sources -/
def Artifact.computedIdHex (crates : Crates) (artifact : Artifact) :
    Except ArtifactIdentityError String :=
  let bare := { artifact with id := "", root := "", modules := [] }
  (crates.artifactJson bare).mapError (ArtifactIdentityError.serialize "argent/artifact/v1")
    |>.map fun json => crates.hexEncode
      (crates.blake2b256 ("argent/artifact/v1".toUTF8.toList ++ json)).bytes

def Artifact.verifyId (crates : Crates) (artifact : Artifact) :
    Except ArtifactIdentityError PUnit := do
  rejectIf (artifact.id = "") (.missingArtifactId artifact.app)
  let expected ← artifact.computedIdHex crates
  rejectIf (artifact.id ≠ expected) (.artifactIdMismatch artifact.app expected artifact.id)

/-! ## the whole check -/

inductive ArtifactVerificationError where
  | version (error : ArtifactVersionError)
  | cardinality (error : ArtifactCardinalityError)
  | silAbi (message : String)
  | templateFrames (error : TemplateFrameVerificationError)
  | templatePlan (error : TemplatePlanError)
  | identity (error : ArtifactIdentityError)

def Artifact.checkSchemaVersion (crates : Crates) (artifact : Artifact) :
    Except ArtifactVersionError Unit := do
  rejectIf (artifact.schemaVersion ≠ artifactSchemaVersion)
    ⟨"Argent artifact", artifactSchemaVersion, artifact.schemaVersion⟩
  crates.checkSchemaVersion artifact.silAbi

/-- the errors of a check of the template plan, its panics kept -/
def planFault : Fault TemplatePlanError → Fault ArtifactVerificationError
  | .error e => .error (.templatePlan e)
  | .panic message => .panic message

def Artifact.checkConsistency (crates : Crates) (artifact : Artifact) :
    Except (Fault ArtifactVerificationError) PUnit := do
  orFail .version (artifact.checkSchemaVersion crates)
  orFail .silAbi (crates.checkSilAbi artifact.silAbi)
  orFail .templateFrames (verifyTemplateFrames artifact)
  (artifact.argent.templatePlan.checkConsistency crates artifact).mapError planFault
  orFail .cardinality artifact.checkCardinality
  orFail .identity (artifact.verifyId crates)

/-- the parts of the check that later use relies on -/
structure Consistent (crates : Crates) (artifact : Artifact) : Prop where
  silAbi : crates.checkSilAbi artifact.silAbi = .ok ()
  frames : verifyTemplateFrames artifact = .ok ⟨⟩
  plan : artifact.argent.templatePlan.checkConsistency crates artifact = .ok ⟨⟩
  cardinality : artifact.checkCardinality = .ok ⟨⟩

theorem checkConsistency_ok {crates : Crates} {artifact : Artifact}
    (h : artifact.checkConsistency crates = .ok ⟨⟩) : Consistent crates artifact := by
  obtain ⟨-, h⟩ := check_eq_ok.mp h
  obtain ⟨habi, h⟩ := check_eq_ok.mp h
  obtain ⟨hframes, h⟩ := check_eq_ok.mp h
  obtain ⟨hplan, h⟩ := check_eq_ok.mp h
  obtain ⟨hcardinality, -⟩ := check_eq_ok.mp h
  exact ⟨orFail_eq_ok.mp habi, orFail_eq_ok.mp hframes, mapError_eq_ok.mp hplan,
    orFail_eq_ok.mp hcardinality⟩

end Argent.Artifacts
