import Argent.Base.BTree
import Argent.Base.Frame
import Argent.Sil.Transaction
import Mathlib.Data.String.Basic

/-!
# The portable Silverscript ABI

The part of an artifact that describes compiled contracts: their bytecode, the span of it that
holds the runtime state, and the layout of that state.

* `CompiledContractArtifact.frame`      the bytecode cut at the state span;
* `Crates`      the functions of other crates that artifacts are checked and used with.
-/

set_option linter.unusedSectionVars false

namespace Argent.Artifacts
open Argent.Sil (Bytes)

/-- `[u8; 32]` -/
structure Digest where
  bytes : Bytes
  length_bytes : bytes.length = 32
deriving DecidableEq

theorem Digest.ext_bytes {d e : Digest} (h : d.bytes = e.bytes) : d = e := by
  cases d
  cases e
  subst h
  rfl

/-- 32 copies of one byte -/
def Digest.repeated (byte : UInt8) : Digest := ⟨List.replicate 32 byte, List.length_replicate⟩

instance : Inhabited Digest := ⟨Digest.repeated 0⟩

/-! ## layouts and values -/

inductive TypeArtifact where
  | int
  | temporal
  | bool
  | byte
  | bytes
  | text
  | pubkey
  | sig
  | datasig
  | fixedBytes (len : Nat)
  | fixedArray (item : TypeArtifact) (len : Nat)
  | dynamicArray (item : TypeArtifact)
  | struct (name : String)
deriving DecidableEq, Repr

/-- a value of the ABI; the keys of an object are distinct -/
inductive ArtifactValue where
  | int (value : Int)
  | bool (value : Bool)
  | byte (value : UInt8)
  | bytes (value : Bytes)
  | text (value : String)
  | object (fields : List (String × ArtifactValue))
  | array (items : List ArtifactValue)
deriving Repr, Inhabited

structure RuntimeFieldArtifact where
  name : String
  ty : TypeArtifact
deriving DecidableEq, Repr

structure RuntimeStateArtifact where
  source : String
  fields : List RuntimeFieldArtifact
deriving DecidableEq, Repr

structure ParamArtifact where
  name : String
  ty : TypeArtifact
deriving DecidableEq, Repr

structure SilEntryArtifact where
  params : List ParamArtifact
deriving DecidableEq, Repr

structure StructArtifact where
  fields : List RuntimeFieldArtifact
deriving DecidableEq, Repr

/-! ## contracts -/

structure StateSpanArtifact where
  offset : Nat
  len : Nat
deriving DecidableEq, Repr

structure CompiledContractArtifact where
  bytecode : Bytes
  templateHash : Digest
  stateSpan : StateSpanArtifact
deriving DecidableEq

/-- the code before the state span, the span, and the code after it -/
def CompiledContractArtifact.frame (compiled : CompiledContractArtifact) : Frame UInt8 where
  leading := compiled.bytecode.take compiled.stateSpan.offset
  width := compiled.stateSpan.len
  trailing := compiled.bytecode.drop (compiled.stateSpan.offset + compiled.stateSpan.len)

structure SilContractArtifact where
  runtimeState : RuntimeStateArtifact
  entries : BTreeMap String SilEntryArtifact
  compiled : CompiledContractArtifact

def SilContractArtifact.entry (contract : SilContractArtifact) (name : String) :
    Option SilEntryArtifact :=
  contract.entries.get name

structure SilAbiArtifact where
  schemaVersion : Nat
  structs : BTreeMap String StructArtifact
  contracts : BTreeMap String SilContractArtifact

def SilAbiArtifact.contract (abi : SilAbiArtifact) (name : String) : Option SilContractArtifact :=
  abi.contracts.get name

theorem CompiledContractArtifact.frame_total {compiled : CompiledContractArtifact}
    (h : compiled.stateSpan.offset + compiled.stateSpan.len ≤ compiled.bytecode.length) :
    compiled.frame.total = compiled.bytecode.length := by
  show (compiled.bytecode.take compiled.stateSpan.offset).length + compiled.stateSpan.len +
    (compiled.bytecode.drop (compiled.stateSpan.offset + compiled.stateSpan.len)).length = _
  rw [List.length_take, List.length_drop, Nat.min_eq_left (by omega)]
  omega

/-! ## other crates -/

structure ArtifactVersionError where
  artifact : String
  supported : Nat
  found : Nat
deriving DecidableEq, Repr

inductive CodecError where
  | missingField (name : String)
  | unknownField (name : String)
  | wrongArgumentCount (entry : String) (expected actual : Nat)
  | other (message : String)
deriving DecidableEq, Repr

/-- hashing and hexadecimal text -/
structure Hashes where
  /-- `blake3::hash` -/
  blake3 : Bytes → Digest
  /-- `faster_hex::hex_encode` into a string -/
  hexEncode : Bytes → String
  /-- `faster_hex::hex_decode` of the bytes of a string, with the text of the error -/
  hexDecode : String → Except String Bytes

/-- what decoding guarantees for text that encoding produced -/
def Hashes.RoundTrips (hashes : Hashes) : Prop :=
  ∀ bytes, hashes.hexDecode (hashes.hexEncode bytes) = .ok bytes

/-! ## lower-case hexadecimal text -/

def hexDigit (value : Nat) : Char :=
  Char.ofNat (if value < 10 then '0'.toNat + value else 'a'.toNat + value - 10)

def hexPair (byte : UInt8) : List Char := [hexDigit (byte.toNat / 16), hexDigit (byte.toNat % 16)]

def hexText (bytes : Bytes) : String := String.ofList (bytes.flatMap hexPair)

def hexValue (digit : UInt8) : Option Nat :=
  if '0'.toNat ≤ digit.toNat ∧ digit.toNat ≤ '9'.toNat then some (digit.toNat - '0'.toNat)
  else if 'a'.toNat ≤ digit.toNat ∧ digit.toNat ≤ 'f'.toNat then
    some (10 + digit.toNat - 'a'.toNat)
  else none

def parsePairs : Bytes → Option Bytes
  | [] => some []
  | [_] => none
  | high :: low :: rest => do
    let high ← hexValue high
    let low ← hexValue low
    let bytes ← parsePairs rest
    pure (UInt8.ofNat (16 * high + low) :: bytes)

def parseHex (text : String) : Except String Bytes :=
  match parsePairs text.toUTF8.data.toList with
  | some bytes => .ok bytes
  | none => .error "invalid hexadecimal text"

/-- a digit is one byte, which stands for its value -/
theorem exists_hexByte {value : Nat} (h : value < 16) :
    ∃ byte, String.utf8EncodeChar (hexDigit value) = [byte] ∧ hexValue byte = some value := by
  have hall : ∀ value < 16,
      (String.utf8EncodeChar (hexDigit value)).map hexValue = [some value] := by decide
  exact List.map_eq_singleton_iff.mp (hall value h)

theorem parsePairs_flatMap (bytes : Bytes) :
    parsePairs ((bytes.flatMap hexPair).flatMap String.utf8EncodeChar) = some bytes := by
  induction bytes with
  | nil => rfl
  | cons byte bytes ih =>
    have hlt : byte.toNat < 256 := byte.toNat_lt
    have hbyte : UInt8.ofNat (16 * (byte.toNat / 16) + byte.toNat % 16) = byte := by
      rw [Nat.div_add_mod, UInt8.ofNat_toNat]
    obtain ⟨high, hhigh, hvalue⟩ := exists_hexByte (show byte.toNat / 16 < 16 by omega)
    obtain ⟨low, hlow, hvalue'⟩ := exists_hexByte (show byte.toNat % 16 < 16 by omega)
    show parsePairs (String.utf8EncodeChar (hexDigit (byte.toNat / 16)) ++
      (String.utf8EncodeChar (hexDigit (byte.toNat % 16)) ++
        (bytes.flatMap hexPair).flatMap String.utf8EncodeChar)) = _
    rw [hhigh, hlow]
    show parsePairs (high :: low :: (bytes.flatMap hexPair).flatMap String.utf8EncodeChar) = _
    rw [parsePairs, hvalue, hvalue', ih]
    exact congrArg (fun b => some (b :: bytes)) hbyte

theorem parseHex_hexText (bytes : Bytes) : parseHex (hexText bytes) = .ok bytes := by
  have hencoded : (hexText bytes).toUTF8.data.toList =
      (bytes.flatMap hexPair).flatMap String.utf8EncodeChar := by
    unfold hexText
    rw [String.toUTF8_eq_toByteArray, String.toByteArray_ofList]
    exact List.toList_data_toByteArray
  unfold parseHex
  rw [hencoded, parsePairs_flatMap]

end Argent.Artifacts
