import Argent.Base.Delimited

/-!
# Integers as bytes

How a script engine writes an integer into a fixed number of bytes, and reads it back.

* `ScriptNumbers`            an encoding of integers in a fixed width that can be read back;
* `ofLittleEndian`           the number that little-endian bytes stand for;
* `signMagnitude`            the magnitude in little-endian bytes, with the sign in the highest bit.
-/

set_option linter.unusedSectionVars false

/-- An encoding of integers in a given number of bytes.  An integer that does not fit has none. -/
structure ScriptNumbers where
  num2bin : Nat → Int → Option (List UInt8)
  bin2num : List UInt8 → Option Int
  length_num2bin : ∀ {size value bytes}, num2bin size value = some bytes → bytes.length = size
  bin2num_num2bin : ∀ {size value bytes}, num2bin size value = some bytes →
    bin2num bytes = some value
  /-- truth values fit in one byte -/
  num2bin_bool : ∀ value : Bool, ∃ bytes, num2bin 1 (if value then 1 else 0) = some bytes

/-- the number that little-endian bytes stand for -/
def ofLittleEndian : List UInt8 → Nat
  | [] => 0
  | byte :: bytes => byte.toNat + 256 * ofLittleEndian bytes

theorem ofLittleEndian_littleEndian {k n : Nat} (h : n < 256 ^ k) :
    ofLittleEndian (littleEndian k n) = n := by
  induction k generalizing n with
  | zero =>
    show 0 = n
    omega
  | succ k ih =>
    have hrest : n / 256 < 256 ^ k := by
      rw [Nat.pow_succ, Nat.mul_comm] at h
      exact Nat.div_lt_of_lt_mul h
    have hbyte : (UInt8.ofNat n).toNat = n % 256 := UInt8.toNat_ofNat
    show (UInt8.ofNat n).toNat + 256 * ofLittleEndian (littleEndian k (n / 256)) = n
    rw [ih hrest, hbyte]
    omega

theorem take_littleEndian {j k n : Nat} (h : j ≤ k) : (littleEndian k n).take j = littleEndian j n := by
  induction j generalizing k n with
  | zero => rfl
  | succ j ih =>
    obtain ⟨k, rfl⟩ : ∃ i, k = i + 1 := ⟨k - 1, by omega⟩
    rw [littleEndian, List.take_succ_cons, ih (Nat.le_of_succ_le_succ h), littleEndian]

namespace SignMagnitude

/-- the highest bit of a number of bytes -/
def signBit (size : Nat) : Nat := 256 ^ size / 2

def num2bin (size : Nat) (value : Int) : Option (List UInt8) :=
  if value.natAbs < signBit size then
    some (littleEndian size (value.natAbs + if value < 0 then signBit size else 0))
  else none

def bin2num (bytes : List UInt8) : Option Int :=
  let number := ofLittleEndian bytes
  let sign := signBit bytes.length
  some (if number < sign then number else -((number - sign : Nat) : Int))

theorem num2bin_eq_some {size : Nat} {value : Int} {bytes : List UInt8}
    (h : num2bin size value = some bytes) : value.natAbs < signBit size ∧
      bytes = littleEndian size (value.natAbs + if value < 0 then signBit size else 0) := by
  unfold num2bin at h
  by_cases hfits : value.natAbs < signBit size
  · rw [if_pos hfits] at h
    exact ⟨hfits, (Option.some_inj.mp h).symm⟩
  · rw [if_neg hfits] at h
    cases h

theorem num2bin_nat {size n : Nat} (h : n < signBit size) :
    num2bin size n = some (littleEndian size n) := by
  unfold num2bin
  rw [Int.natAbs_natCast, if_pos h, if_neg (by omega)]
  rfl

theorem bin2num_num2bin {size : Nat} {value : Int} {bytes : List UInt8}
    (h : num2bin size value = some bytes) : bin2num bytes = some value := by
  obtain ⟨hfits, rfl⟩ := num2bin_eq_some h
  have hhalf : signBit size + signBit size ≤ 256 ^ size := by
    unfold signBit
    omega
  unfold bin2num
  rw [length_littleEndian]
  dsimp only
  split_ifs with hneg hlow hlow
  · rw [ofLittleEndian_littleEndian (by omega)] at hlow
    omega
  · rw [ofLittleEndian_littleEndian (by omega), Option.some_inj]
    omega
  · rw [ofLittleEndian_littleEndian (by omega), Option.some_inj]
    omega
  · rw [ofLittleEndian_littleEndian (by omega)] at hlow
    omega

end SignMagnitude

/-- the numbers of the script engine: a sign bit above the little-endian magnitude -/
def signMagnitude : ScriptNumbers where
  num2bin := SignMagnitude.num2bin
  bin2num := SignMagnitude.bin2num
  length_num2bin h := by rw [(SignMagnitude.num2bin_eq_some h).2, length_littleEndian]
  bin2num_num2bin := SignMagnitude.bin2num_num2bin
  num2bin_bool value := by cases value <;> exact ⟨_, rfl⟩

example : signMagnitude.num2bin 8 (-5) = some [5, 0, 0, 0, 0, 0, 0, 128] := by decide
