import Argent.Artifacts.Artifact
import Argent.Base.Fallible
import Mathlib.Algebra.BigOperators.Group.List.Basic
import Mathlib.Algebra.GroupWithZero.Nat

/-!
# The encoding of runtime states

A runtime state is written into the code of its contract field by field.  Where every layout has a
fixed width, the width of a state does not depend on its values.

* `FieldEncoding`      an encoding of each layout with a fixed width;
* `FieldEncoding.Describes`      states are encoded field by field;
* `length_of_parts`      **the width of an encoded state is the sum of the widths of its fields**;
* `pushEncoding`      single data pushes, as an instance.
-/

set_option linter.unusedSectionVars false

namespace Argent.Artifacts
open Argent.Fallible Argent.Sil

/-! ## fixed widths -/

/-- how the values of each layout are encoded, with a width that only the layout decides -/
structure FieldEncoding where
  width : SilAbiArtifact → TypeArtifact → Nat
  encode : SilAbiArtifact → TypeArtifact → ArtifactValue → Except CodecError Bytes
  length_encode : ∀ {abi ty value bytes}, encode abi ty value = .ok bytes →
    bytes.length = width abi ty

namespace FieldEncoding
variable (enc : FieldEncoding)

/-- `part` encodes the value of `field` -/
def Part (abi : SilAbiArtifact) (values : BTreeMap String ArtifactValue)
    (field : RuntimeFieldArtifact) (part : Bytes) : Prop :=
  ∃ value, values.get field.name = some value ∧ enc.encode abi field.ty value = .ok part

/-- the width of a state with these fields -/
def stateWidth (abi : SilAbiArtifact) (fields : List RuntimeFieldArtifact) : Nat :=
  (fields.map fun field => enc.width abi field.ty).sum

/-- `encode_runtime_state_script` writes the fields one after the other -/
def Describes (crates : Crates) : Prop :=
  ∀ abi state values script, crates.encodeRuntimeStateScript abi state values = .ok script →
    ∃ parts, List.Forall₂ (enc.Part abi values) state.fields parts ∧ script = parts.flatten

/-- the declared state spans have the widths of the states -/
def Spans (artifact : Artifact) : Prop :=
  ∀ name contract, artifact.silAbi.contract name = some contract →
    contract.compiled.stateSpan.len =
      enc.stateWidth artifact.silAbi contract.runtimeState.fields

variable {enc}

theorem stateWidth_append (abi : SilAbiArtifact) (first second : List RuntimeFieldArtifact) :
    enc.stateWidth abi (first ++ second) =
      enc.stateWidth abi first + enc.stateWidth abi second := by
  unfold stateWidth
  rw [List.map_append, List.sum_append]

theorem length_of_parts {abi : SilAbiArtifact} {values : BTreeMap String ArtifactValue}
    {fields : List RuntimeFieldArtifact} {parts : List Bytes}
    (h : List.Forall₂ (enc.Part abi values) fields parts) :
    parts.flatten.length = enc.stateWidth abi fields := by
  induction h with
  | nil => rfl
  | @cons field part fields parts hpart _ ih =>
    obtain ⟨value, -, hencode⟩ := hpart
    rw [List.flatten_cons, List.length_append, ih, enc.length_encode hencode]
    rfl

end FieldEncoding

/-- `script_parts` cuts a script at the state span -/
def Crates.SplitsScripts (crates : Crates) : Prop :=
  ∀ compiled script parts, crates.scriptParts compiled script = some parts →
    script = parts.1 ++ parts.2.1 ++ parts.2.2 ∧
      parts.1.length = compiled.stateSpan.offset ∧ parts.2.1.length = compiled.stateSpan.len

theorem Crates.SplitsScripts.frame_eq {crates : Crates} (h : crates.SplitsScripts)
    {compiled : CompiledContractArtifact} {leading state trailing : Bytes}
    (hparts : crates.scriptParts compiled compiled.bytecode = some (leading, state, trailing)) :
    compiled.frame = ⟨leading, compiled.stateSpan.len, trailing⟩ := by
  obtain ⟨hcode, hleading, hstate⟩ := h _ _ _ hparts
  dsimp only at hcode hleading hstate
  unfold CompiledContractArtifact.frame
  rw [hcode, ← hleading, List.append_assoc, List.take_left' rfl, ← hstate, ← List.append_assoc,
    List.drop_left' (by rw [List.length_append])]

/-! ## data pushes -/

/-- the bytes that a value is pushed as -/
def pushedBytes (ty : TypeArtifact) (value : ArtifactValue) : Option Bytes :=
  match ty, value with
  | .byte, .byte value => some [value]
  | .fixedBytes len, .bytes value => if value.length = len ∧ len ≤ 75 then some value else none
  | _, _ => none

def pushedWidth : TypeArtifact → Nat
  | .byte => 1
  | .fixedBytes len => len
  | _ => 0

def pushField (ty : TypeArtifact) (value : ArtifactValue) : Except CodecError Bytes := do
  let bytes ← okOr (pushedBytes ty value) (.other "unsupported value")
  pure (UInt8.ofNat bytes.length :: bytes)

theorem length_pushedBytes {ty : TypeArtifact} {value : ArtifactValue} {bytes : Bytes}
    (h : pushedBytes ty value = some bytes) : bytes.length = pushedWidth ty := by
  unfold pushedBytes at h
  split at h
  · cases h
    rfl
  · split_ifs at h with hlen
    cases h
    exact hlen.1
  · cases h

/-- one data push for each field -/
def pushEncoding : FieldEncoding where
  width _ ty := pushedWidth ty + 1
  encode _ ty value := pushField ty value
  length_encode h := by
    obtain ⟨bytes, hbytes, h⟩ := bind_eq_ok.mp h
    rw [← pure_eq_ok.mp h, List.length_cons, length_pushedBytes (okOr_eq_ok.mp hbytes)]

def pushState (state : RuntimeStateArtifact) (values : BTreeMap String ArtifactValue) :
    Except CodecError Bytes := do
  let parts ← state.fields.mapM fun field => do
    let value ← okOr (values.get field.name) (.missingField field.name)
    pushField field.ty value
  pure parts.flatten

theorem pushState_parts {abi : SilAbiArtifact} {state : RuntimeStateArtifact}
    {values : BTreeMap String ArtifactValue} {script : Bytes}
    (h : pushState state values = .ok script) :
    ∃ parts, List.Forall₂ (pushEncoding.Part abi values) state.fields parts ∧
      script = parts.flatten := by
  obtain ⟨parts, hparts, h⟩ := bind_eq_ok.mp h
  refine ⟨parts, (mapM_ok hparts).imp fun field part hpart => ?_, (pure_eq_ok.mp h).symm⟩
  obtain ⟨value, hvalue, hpush⟩ := bind_eq_ok.mp hpart
  exact ⟨value, okOr_eq_ok.mp hvalue, hpush⟩

/-- reads the pushes back -/
def popFields (values : BTreeMap String ArtifactValue) :
    List RuntimeFieldArtifact → Bytes → Except CodecError (BTreeMap String ArtifactValue)
  | [], [] => .ok values
  | field :: fields, len :: rest => do
    let width := pushedWidth field.ty
    rejectIf (len ≠ UInt8.ofNat width ∨ rest.length < width) (.other "unexpected push")
    let value ← match field.ty, rest.take width with
      | .byte, [value] => .ok (.byte value)
      | .fixedBytes _, value => .ok (.bytes value)
      | _, _ => .error (.other "unsupported layout")
    popFields (values.insert field.name value) fields (rest.drop width)
  | _, _ => .error (.other "unexpected end of the state")

def splitScript (compiled : CompiledContractArtifact) (script : Bytes) :
    Option (Bytes × Bytes × Bytes) :=
  if compiled.stateSpan.offset + compiled.stateSpan.len ≤ script.length then
    some (script.take compiled.stateSpan.offset,
      (script.drop compiled.stateSpan.offset).take compiled.stateSpan.len,
      script.drop (compiled.stateSpan.offset + compiled.stateSpan.len))
  else none

theorem splitScript_ok {compiled : CompiledContractArtifact} {script : Bytes}
    {parts : Bytes × Bytes × Bytes} (h : splitScript compiled script = some parts) :
    script = parts.1 ++ parts.2.1 ++ parts.2.2 ∧
      parts.1.length = compiled.stateSpan.offset ∧
        parts.2.1.length = compiled.stateSpan.len := by
  unfold splitScript at h
  split_ifs at h with hspan
  obtain rfl := Option.some.inj h
  refine ⟨?_, ?_, ?_⟩
  · dsimp only
    rw [List.append_assoc, ← List.drop_drop, List.take_append_drop, List.take_append_drop]
  · rw [List.length_take, Nat.min_eq_left (by omega)]
  · rw [List.length_take, List.length_drop, Nat.min_eq_left (by omega)]

end Argent.Artifacts
