import Argent.Runtime.HiddenArgs

/-!
# User arguments

The arguments that a caller supplies for the entry of an input, known beforehand or computed from
the unsigned transaction, lowered to the values that the script receives.

* `lowerArgValues`      actors become the positions of their variants;
* `resolveContextArgs`      the arguments of all inputs.
-/

set_option linter.unusedSectionVars false

namespace Argent.Runtime
open Argent.Fallible Argent.Sil Argent.Artifacts

/-- `a.checked_sub(b)` -/
def checkedSub (a b : Nat) : Option Nat := if b ≤ a then some (a - b) else none

/-- an actor argument stands for a variant of the selector at its parameter -/
def lowerActorArg (actorName entryName : String) (silEntry : SilEntryArtifact)
    (artifactEntry : EntryArtifact) (idx : Nat) (selectedActor : String) :
    BuilderResult (String × ArtifactValue) := do
  let param ← okOr silEntry.params[idx]?
    (.error (.actorArgumentWithoutSelector actorName entryName ("#" ++ toString idx) selectedActor))
  let selector ← okOr
    (artifactEntry.templateSelectors.find? fun selector => selector.name == param.name)
    (.error (.actorArgumentWithoutSelector actorName entryName param.name selectedActor))
  let variantIndex ← okOr (selector.variants.findIdx? fun variant => variant == selectedActor)
    (.error (.invalidTemplateSelectorChoice selector.name selectedActor))
  pure (selector.name, .int (asI64 variantIndex))

def lowerArgValue (actorName entryName : String) (silEntry : SilEntryArtifact)
    (artifactEntry : EntryArtifact) (state : ResolvedEntryArgs) (item : ArgValue × Nat) :
    BuilderResult ResolvedEntryArgs :=
  match item.1 with
  | .value value => pure { state with values := state.values ++ [value] }
  | .actor selectedActor => do
    let (selector, value) ← lowerActorArg actorName entryName silEntry artifactEntry item.2
      selectedActor
    pure ⟨state.values ++ [value], state.templateSelectors.insert selector selectedActor⟩

/-- the values of the arguments, and the actors that were chosen for selectors -/
def lowerArgValues (actorName entryName : String) (silEntry : SilEntryArtifact)
    (artifactEntry : EntryArtifact) (userArgs : List ArgValue) : BuilderResult ResolvedEntryArgs :=
  userArgs.zipIdx.foldlM (lowerArgValue actorName entryName silEntry artifactEntry) ⟨[], ∅⟩

/-- the parameters of an entry that are not hidden -/
def expectedArgCount (input : ResolveActorInput) : BuilderResult Nat :=
  okOr (checkedSub input.silEntry.params.length input.artifactEntry.hiddenParams.length)
    (invalidTransition input ("artifact has " ++ toString input.artifactEntry.hiddenParams.length ++
      " hidden parameters but the Sil entry has " ++ toString input.silEntry.params.length ++
      " total parameters"))

/-- the arguments as the caller gives them, or computes them from the unsigned transaction -/
def sourceArgs (unsigned : MutableTransaction) (inputIndex : Nat) (input : ResolveActorInput) :
    BuilderResult (List ArgValue) :=
  match input.source.entry.args with
  | .static args => pure args
  | .withTransaction build => orFail
      (BuilderError.entryArgsCallback inputIndex input.source.actor.text input.source.entry.name)
      (build unsigned inputIndex)

/-- the user arguments of one actor input -/
def resolveActorArgs (unsigned : MutableTransaction) (inputIndex : Nat)
    (input : ResolveActorInput) : BuilderResult ResolvedEntryArgs := do
  let expectedCount ← expectedArgCount input
  let args ← sourceArgs unsigned inputIndex input
  rejectIf (args.length ≠ expectedCount) (.error (.codec (.wrongArgumentCount
    (input.source.actor.text ++ "::" ++ input.source.entry.name) expectedCount args.length)))
  lowerArgValues input.source.actor.actor input.source.entry.name input.silEntry
    input.artifactEntry args

def resolveInputArgs (unsigned : MutableTransaction) (item : ResolveInput × Nat) :
    BuilderResult ResolveInput :=
  match item.1 with
  | .ordinary input => pure (.ordinary input)
  | .actor input => do
    let args ← resolveActorArgs unsigned item.2 input
    pure (.actor { input with args := some args })

def resolveContextArgs (context : ResolveContext) (unsigned : MutableTransaction) :
    BuilderResult ResolveContext := do
  let inputs ← context.inputs.zipIdx.mapM (resolveInputArgs unsigned)
  pure { context with inputs := inputs }

end Argent.Runtime
