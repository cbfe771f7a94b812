import Argent.Syntax.LexerSound
import Argent.Syntax.Numbers
import Mathlib.Data.Nat.Digits.Lemmas
import Mathlib.Tactic.NormNum

/-!
# Number literals and their values

* `Literal`          the number tokens, with the number each stands for;
* `exists_literal`      the text of a number token is a literal;
* `numberBeforeUnit_toOption`      the two readers agree on every text;
* `parseNumberValue_eq`      what a reader makes of a literal;
* `parseNumberExpression_exact_iff`      **a literal is read as its value, unless it is a zero with an
  exponent whose power of ten overflows**.
-/

set_option linter.unusedSectionVars false

namespace Argent.Syntax
open Argent.Fallible Argent.Utf8

/-! ## literals -/

def decimalDigits : List Char := "0123456789".toList

def hexDigits : List Char := "0123456789abcdefABCDEF".toList

/-- the number that a digit stands for -/
def digitValue (c : Char) : Nat := "0123456789abcdef".toList.idxOf c.toLower

/-- the number that digits stand for, separators left out -/
def digitsValue (radix : Nat) (digits : List Char) : Nat :=
  Nat.ofDigits radix ((digits.filter fun c => c != '_').map digitValue).reverse

abbrev HexDigits := {digits : List Char // ∀ c ∈ digits, c ∈ hexDigits}

/-- digits and separators -/
abbrev DecimalDigits := {digits : List Char // ∀ c ∈ digits, c ∈ '_' :: decimalDigits}

/-- a number without sign and unit -/
inductive Literal where
  | hex (mark : {c : Char // c ∈ ['x', 'X']}) (digits : HexDigits)
  | decimal (first : {c : Char // c ∈ decimalDigits}) (more : DecimalDigits)
  | scientific (first : {c : Char // c ∈ decimalDigits}) (more : DecimalDigits)
    (mark : {c : Char // c ∈ ['e', 'E']}) (exponent : DecimalDigits)

namespace Literal

def text : Literal → List Char
  | hex mark digits => '0' :: mark.val :: digits.val
  | decimal first more => first.val :: more.val
  | scientific first more mark exponent => (first.val :: more.val) ++ mark.val :: exponent.val

/-- the digits before an exponent -/
def mantissa : Literal → Nat
  | hex _ digits => digitsValue 16 digits
  | decimal first more => digitsValue 10 (first.val :: more.val)
  | scientific first more _ _ => digitsValue 10 (first.val :: more.val)

def exponent : Literal → Nat
  | scientific _ _ _ exponent => digitsValue 10 exponent
  | _ => 0

/-- the number that a literal stands for -/
def value (literal : Literal) : Nat := literal.mantissa * 10 ^ literal.exponent

/-- a digit follows each mark -/
def WellFormed : Literal → Prop
  | hex _ digits => ∃ c, c ∈ digits.val
  | decimal _ _ => True
  | scientific _ _ _ exponent => ∃ c ∈ exponent.val, c ∈ decimalDigits

/-- a zero with an exponent that no `i128` is a power of ten for -/
def Overscaled (literal : Literal) : Prop := literal.mantissa = 0 ∧ 39 ≤ literal.exponent

end Literal

/-! ## units -/

inductive NumberUnit where
  | seconds
  | minutes
  | hours
  | days
  | weeks
  | litras
  | grains
  | kas
deriving DecidableEq, Repr

namespace NumberUnit

def all : List NumberUnit := [seconds, minutes, hours, days, weeks, litras, grains, kas]

def name : NumberUnit → String
  | seconds => "seconds"
  | minutes => "minutes"
  | hours => "hours"
  | days => "days"
  | weeks => "weeks"
  | litras => "litras"
  | grains => "grains"
  | kas => "kas"

/-- milliseconds of a time, litras of an amount -/
def scale : NumberUnit → Nat
  | seconds => 1000
  | minutes => 60 * 1000
  | hours => 60 * (60 * 1000)
  | days => 24 * (60 * (60 * 1000))
  | weeks => 7 * (24 * (60 * (60 * 1000)))
  | litras => 1
  | grains => 10 ^ 5
  | kas => 10 ^ 8

def temporal : NumberUnit → Bool
  | seconds | minutes | hours | days | weeks => true
  | litras | grains | kas => false

end NumberUnit

/-- the unit that a token names -/
def unitOf (token : Token) : Option NumberUnit :=
  NumberUnit.all.find? fun unit => token.kind = .ident unit.name

/-- the value of a literal with its unit -/
def scaledValue (literal : Literal) : Option NumberUnit → Nat
  | none => literal.value
  | some unit => literal.value * unit.scale

/-- a value under the kind of its unit -/
def numberKind (value : Int) : Option NumberUnit → NumberKind
  | none => .int value
  | some unit => if unit.temporal then .temporal value else .int value

/-- what it means that a literal is read as its exact value -/
structure ReadExactly {SilSpan : Type} (literal : Literal) (unit : Option NumberUnit) (raw : String)
    (result : Except (Fault FileError) (NumberExpr SilSpan × Parser)) : Prop where
  succeeds : (∃ read, result = .ok read) ↔
    literal.WellFormed ∧ (scaledValue literal unit : Int) ≤ 2 ^ 63 - 1
  exact : ∀ read, result = .ok read → read.1.kind = numberKind (scaledValue literal unit) unit
  agrees : unit = none → ∀ value : Int, parseNumberValue raw = some value ↔
    ∃ read, result = .ok read ∧ read.1.kind = .int value

/-! ## digits -/

theorem toDigit_hex {c : Char} (h : c ∈ hexDigits) : toDigit 16 c = some (digitValue c) := by
  have hall : (hexDigits.all fun c => toDigit 16 c = some (digitValue c)) = true := by decide
  exact of_decide_eq_true (List.all_eq_true.mp hall c h)

theorem toDigit_decimal {c : Char} (h : c ∈ decimalDigits) :
    toDigit 10 c = some (digitValue c) := by
  have hall : (decimalDigits.all fun c => toDigit 10 c = some (digitValue c)) = true := by decide
  exact of_decide_eq_true (List.all_eq_true.mp hall c h)

section
variable {radix : Nat} {digits : List Char} {low high value : Int}

theorem toDigit_plus : toDigit radix '+' = none := rfl

theorem toDigit_minus : toDigit radix '-' = none := rfl

theorem foldlM_digits (h : ∀ c ∈ digits, toDigit radix c = some (digitValue c)) (before : Nat) :
    digits.foldlM (fun value c => (toDigit radix c).map fun digit => value * radix + digit) before =
      some (before * radix ^ digits.length + Nat.ofDigits radix (digits.map digitValue).reverse) := by
  induction digits generalizing before with
  | nil =>
    rw [List.foldlM_nil, List.length_nil, pow_zero, Nat.mul_one]
    rfl
  | cons c digits ih =>
    have hrest := ih (fun d hd => h d (List.mem_cons_of_mem _ hd)) (before * radix + digitValue c)
    rw [List.foldlM_cons, h c List.mem_cons_self]
    show List.foldlM _ (before * radix + digitValue c) digits = _
    rw [hrest, List.map_cons, List.reverse_cons, Nat.ofDigits_append, List.length_reverse,
      List.length_map, Nat.ofDigits_singleton, List.length_cons]
    congr 1
    ring

theorem readDigits_eq (h : ∀ c ∈ digits, toDigit radix c = some (digitValue c)) :
    readDigits radix digits = some (Nat.ofDigits radix (digits.map digitValue).reverse) := by
  unfold readDigits
  rw [foldlM_digits h, Nat.zero_mul, Nat.zero_add]

theorem fromStrRadix_digits (h : ∀ c ∈ digits, toDigit radix c = some (digitValue c)) :
    fromStrRadix low high radix digits =
      if digits = [] then none
      else within low high (Nat.ofDigits radix (digits.map digitValue).reverse : Nat) := by
  have hread := readDigits_eq h
  unfold fromStrRadix
  split
  rename_i negative rest hsplit
  have hplain : (false, digits) = (negative, rest) := by
    rw [← hsplit]
    cases digits with
    | nil => rfl
    | cons c digits =>
      have hhead := h c List.mem_cons_self
      split
      · rename_i hsign
        rw [(List.cons.inj hsign).1, toDigit_plus] at hhead
        cases hhead
      · rename_i hsign
        rw [(List.cons.inj hsign).1, toDigit_minus] at hhead
        cases hhead
      · rfl
  cases hplain
  by_cases hempty : digits = []
  · rw [if_pos hempty, if_pos hempty]
  · rw [if_neg hempty, if_neg hempty, hread]
    rfl

theorem toDigit_of_decimal (h : ∀ c ∈ digits, c ∈ '_' :: decimalDigits) :
    ∀ c ∈ withoutSeparators digits, toDigit 10 c = some (digitValue c) := by
  intro c hc
  obtain ⟨hmem, hsep⟩ := List.mem_filter.mp hc
  obtain rfl | hdigit := List.mem_cons.mp (h c hmem)
  · cases hsep
  · exact toDigit_decimal hdigit

theorem fromStrRadix_decimal (h : ∀ c ∈ digits, c ∈ '_' :: decimalDigits) :
    fromStrRadix low high 10 (withoutSeparators digits) =
      if withoutSeparators digits = [] then none else within low high (digitsValue 10 digits : Nat) :=
  fromStrRadix_digits (toDigit_of_decimal h)

theorem within_nat {n : Nat} (hlow : low ≤ 0) :
    within low high n = if (n : Int) ≤ high then some (n : Int) else none := by
  unfold within
  by_cases h : (n : Int) ≤ high
  · rw [if_pos h, if_pos ⟨by omega, h⟩]
  · rw [if_neg h, if_neg fun h' => h h'.2]

end

/-! ## powers of ten -/

theorem checkedMulI128_nat (a b : Nat) : checkedMulI128 a b =
    if ((a * b : Nat) : Int) ≤ 2 ^ 127 - 1 then some ((a * b : Nat) : Int) else none := by
  unfold checkedMulI128 withinI128
  rw [← Int.natCast_mul]
  exact within_nat (by norm_num)

theorem checkedPowI128_of_lt {exponent : Nat} (h : exponent < 39) :
    checkedPowI128 10 exponent = some ((10 ^ exponent : Nat) : Int) := by
  induction exponent with
  | zero => rfl
  | succ exponent ih =>
    have hpow : 10 ^ (exponent + 1) ≤ 10 ^ 38 := Nat.pow_le_pow_right (by norm_num) (by omega)
    have hbound : (10 : Nat) ^ 38 ≤ 2 ^ 127 - 1 := by norm_num
    rw [checkedPowI128, ih (by omega)]
    show checkedMulI128 ((10 ^ exponent : Nat) : Int) ((10 : Nat) : Int) = _
    rw [checkedMulI128_nat, ← pow_succ, if_pos (by omega)]

theorem checkedPowI128_of_le {exponent : Nat} (h : 39 ≤ exponent) :
    checkedPowI128 10 exponent = none := by
  induction exponent, h using Nat.le_induction with
  | base =>
    rw [checkedPowI128, checkedPowI128_of_lt (by norm_num)]
    show checkedMulI128 ((10 ^ 38 : Nat) : Int) ((10 : Nat) : Int) = _
    rw [checkedMulI128_nat, if_neg (by norm_num)]
  | succ exponent _ ih =>
    rw [checkedPowI128, ih]
    rfl

/-! ## the parts of a token -/

section
variable {first c mark : Char} {text base exponent digits : List Char}

theorem ne_of_decimal (hc : c ∈ '_' :: decimalDigits) :
    ¬ (c = 'e' ∨ c = 'E') ∧ c ∉ ['x', 'X'] := by
  have hall : (('_' :: decimalDigits).all fun c =>
    decide (¬ (c = 'e' ∨ c = 'E') ∧ c ∉ ['x', 'X'])) = true := by decide
  exact of_decide_eq_true (List.all_eq_true.mp hall c hc)

theorem stripHex_of_marked (hmark : mark ∈ ['x', 'X']) :
    stripHex ('0' :: mark :: digits) = some digits := by
  obtain rfl | hmark := List.mem_cons.mp hmark
  · rfl
  · rw [List.mem_singleton.mp hmark]
    rfl

theorem stripHex_of_unmarked (h : ∀ c ∈ text.head?, c ∉ ['x', 'X']) :
    stripHex (first :: text) = none := by
  unfold stripHex
  split
  · rename_i hcut
    rw [(List.cons.inj hcut).2] at h
    exact absurd (List.mem_cons_self) (h 'x' rfl)
  · rename_i hcut
    rw [(List.cons.inj hcut).2] at h
    exact absurd (List.mem_cons_of_mem _ List.mem_cons_self) (h 'X' rfl)
  · rfl

theorem splitExponent_none (h : ∀ c ∈ base, c ∈ '_' :: decimalDigits) :
    splitExponent base = none := by
  induction base with
  | nil => rfl
  | cons c base ih =>
    rw [splitExponent, if_neg (ne_of_decimal (h c List.mem_cons_self)).1,
      ih fun d hd => h d (List.mem_cons_of_mem _ hd)]
    rfl

theorem splitExponent_some (h : ∀ c ∈ base, c ∈ '_' :: decimalDigits) (hmark : mark ∈ ['e', 'E']) :
    splitExponent (base ++ mark :: exponent) = some (base, exponent) := by
  induction base with
  | nil =>
    have heither : mark = 'e' ∨ mark = 'E' := by
      rwa [List.mem_cons, List.mem_singleton] at hmark
    rw [List.nil_append, splitExponent, if_pos heither]
  | cons c base ih =>
    rw [List.cons_append, splitExponent, if_neg (ne_of_decimal (h c List.mem_cons_self)).1,
      ih fun d hd => h d (List.mem_cons_of_mem _ hd)]
    rfl

theorem withoutSeparators_eq_nil (h : ∀ c ∈ digits, c ∈ '_' :: decimalDigits) :
    withoutSeparators digits = [] ↔ ¬ ∃ c ∈ digits, c ∈ decimalDigits := by
  unfold withoutSeparators
  rw [List.filter_eq_nil_iff]
  constructor
  · rintro hnone ⟨c, hc, hdigit⟩
    have hall : (decimalDigits.all fun c => c != '_') = true := by decide
    exact hnone c hc (List.all_eq_true.mp hall c hdigit)
  · intro hnone c hc hne
    obtain rfl | hdigit := List.mem_cons.mp (h c hc)
    · cases hne
    · exact hnone ⟨c, hc, hdigit⟩

/-- the digits of a base are read up to the bound of an `i128` -/
theorem parseI128_base (hfirst : first ∈ decimalDigits)
    (h : ∀ c ∈ text, c ∈ '_' :: decimalDigits) :
    parseI128 (withoutSeparators (first :: text)) =
      if (digitsValue 10 (first :: text) : Int) ≤ 2 ^ 127 - 1 then
        some (digitsValue 10 (first :: text) : Int) else none := by
  have hall : ∀ c ∈ first :: text, c ∈ '_' :: decimalDigits := by
    intro c hc
    obtain rfl | hc := List.mem_cons.mp hc
    · exact List.mem_cons_of_mem _ hfirst
    · exact h c hc
  have hsome : ¬ withoutSeparators (first :: text) = [] := by
    rw [withoutSeparators_eq_nil hall, not_not]
    exact ⟨first, List.mem_cons_self, hfirst⟩
  unfold parseI128
  rw [fromStrRadix_decimal hall, if_neg hsome, within_nat (by norm_num)]

theorem parseU32_exponent (h : ∀ c ∈ digits, c ∈ '_' :: decimalDigits) {n : Nat} :
    parseU32 (withoutSeparators digits) = some n ↔
      (∃ c ∈ digits, c ∈ decimalDigits) ∧ n = digitsValue 10 digits ∧ n ≤ 2 ^ 32 - 1 := by
  unfold parseU32
  rw [fromStrRadix_decimal h]
  by_cases hempty : withoutSeparators digits = []
  · have hnone := (withoutSeparators_eq_nil h).mp hempty
    rw [if_pos hempty]
    exact ⟨nofun, fun hsome => absurd hsome.1 hnone⟩
  · have hsome : ∃ c ∈ digits, c ∈ decimalDigits :=
      not_not.mp fun hnone => hempty ((withoutSeparators_eq_nil h).mpr hnone)
    rw [if_neg hempty, within_nat (Int.le_refl 0)]
    split_ifs with hle
    · show some (digitsValue 10 digits) = some n ↔ _
      rw [Option.some_inj]
      constructor
      · rintro rfl
        exact ⟨hsome, rfl, by omega⟩
      · rintro ⟨-, rfl, -⟩
        rfl
    · refine ⟨nofun, fun ⟨_, heq, hbound⟩ => ?_⟩
      exact absurd hle (by omega)

end

/-! ## the readers -/

section
variable {raw : String} {value : Int}

theorem tryI64_nat (n : Nat) {value : Int} :
    tryI64 n = some value ↔ (n : Int) ≤ 2 ^ 63 - 1 ∧ value = n := by
  unfold tryI64
  rw [within_nat (by norm_num)]
  split_ifs with h
  · rw [Option.some_inj, eq_comm]
    exact (and_iff_right h).symm
  · exact ⟨nofun, fun hle => absurd hle.1 h⟩

/-- the two readers agree on every text -/
theorem numberBeforeUnit_toOption (raw : String) :
    (numberBeforeUnit raw).toOption = parseNumberValue raw := by
  have hokOr : ∀ {α : Type} (x : Option α) (message : String),
      (okOr x message).toOption = x := by
    intro α x message
    cases x with
    | none => rfl
    | some a => rfl
  have hbind : ∀ {α β : Type} (x : Except String α) (f : α → Except String β),
      (x >>= f).toOption = x.toOption.bind fun a => (f a).toOption := by
    intro α β x f
    cases x with
    | error e => rfl
    | ok a => rfl
  unfold numberBeforeUnit parseNumberValue
  cases stripHex raw.toList with
  | some hex => exact hokOr _ _
  | none =>
    dsimp only
    cases (baseAndExponent raw.toList).2 with
    | none =>
      rw [hbind, hokOr]
      refine congrArg _ (funext fun value => ?_)
      exact hokOr _ _
    | some exponent =>
      rw [hbind, hokOr]
      refine congrArg _ (funext fun value => ?_)
      dsimp only
      simp only [hbind, hokOr]
      rfl

theorem parseNumberValue_scientific {base exponent : List Char} {mantissa : Nat}
    (hhex : stripHex raw.toList = none)
    (hsplit : splitExponent raw.toList = some (base, exponent))
    (hbase : parseI128 (withoutSeparators base) =
      if (mantissa : Int) ≤ 2 ^ 127 - 1 then some (mantissa : Int) else none)
    (hexponent : ∀ c ∈ exponent, c ∈ '_' :: decimalDigits) :
    parseNumberValue raw = some value ↔ (∃ c ∈ exponent, c ∈ decimalDigits) ∧
      ¬ (mantissa = 0 ∧ 39 ≤ digitsValue 10 exponent) ∧
      ((mantissa * 10 ^ digitsValue 10 exponent : Nat) : Int) ≤ 2 ^ 63 - 1 ∧
      value = (mantissa * 10 ^ digitsValue 10 exponent : Nat) := by
  unfold parseNumberValue baseAndExponent
  rw [hhex, hsplit]
  dsimp only
  rw [hbase]
  constructor
  · intro h
    obtain ⟨base, hread, hexp⟩ := Option.bind_eq_some_iff.mp h
    obtain ⟨places, hplaces, hpow⟩ := Option.bind_eq_some_iff.mp hexp
    obtain ⟨scale, hscale, hmul⟩ := Option.bind_eq_some_iff.mp hpow
    obtain ⟨scaled, hscaled, hlast⟩ := Option.bind_eq_some_iff.mp hmul
    obtain ⟨hdigit, rfl, -⟩ := (parseU32_exponent hexponent).mp hplaces
    have hlt : digitsValue 10 exponent < 39 := by
      by_contra hge
      rw [checkedPowI128_of_le (by omega)] at hscale
      cases hscale
    rw [checkedPowI128_of_lt hlt, Option.some_inj] at hscale
    split_ifs at hread
    rw [← Option.some_inj.mp hread, ← hscale, checkedMulI128_nat] at hscaled
    split_ifs at hscaled
    rw [← Option.some_inj.mp hscaled] at hlast
    obtain ⟨hle, rfl⟩ := (tryI64_nat _).mp hlast
    exact ⟨hdigit, fun hzero => absurd hzero.2 (by omega), hle, rfl⟩
  · rintro ⟨hdigit, hnot, hle, rfl⟩
    have hpos : 1 ≤ 10 ^ digitsValue 10 exponent := Nat.one_le_pow _ _ (by norm_num)
    have hmantissa : mantissa ≤ mantissa * 10 ^ digitsValue 10 exponent :=
      Nat.le_mul_of_pos_right _ hpos
    -- a number that fits has few places, unless it is zero
    have hlt : digitsValue 10 exponent < 39 := by
      by_contra hge
      have hone : 1 ≤ mantissa := by
        by_contra hzero
        exact hnot ⟨by omega, by omega⟩
      have hpow : 10 ^ 39 ≤ 10 ^ digitsValue 10 exponent :=
        Nat.pow_le_pow_right (by norm_num) (by omega)
      have hmul : 1 * 10 ^ 39 ≤ mantissa * 10 ^ digitsValue 10 exponent := Nat.mul_le_mul hone hpow
      omega
    refine Option.bind_eq_some_iff.mpr ⟨mantissa, if_pos (by omega), ?_⟩
    refine Option.bind_eq_some_iff.mpr
      ⟨_, (parseU32_exponent hexponent).mpr ⟨hdigit, rfl, by omega⟩, ?_⟩
    refine Option.bind_eq_some_iff.mpr ⟨_, checkedPowI128_of_lt hlt, ?_⟩
    rw [checkedMulI128_nat, if_pos (by omega)]
    exact (tryI64_nat _).mpr ⟨hle, rfl⟩

/-- **What a reader makes of a literal.** -/
theorem parseNumberValue_eq {literal : Literal} (h : literal.text = raw.toList) :
    parseNumberValue raw = some value ↔ literal.WellFormed ∧ ¬ literal.Overscaled ∧
      (literal.value : Int) ≤ 2 ^ 63 - 1 ∧ value = literal.value := by
  cases literal with
  | hex mark digits =>
    have hnone : ¬ Literal.Overscaled (.hex mark digits) := fun hover =>
      Nat.not_succ_le_zero 38 hover.2
    have hvalue : (Literal.hex mark digits).value =
        Nat.ofDigits 16 (digits.val.map digitValue).reverse := by
      have hall : (hexDigits.all fun c => c != '_') = true := by decide
      show digitsValue 16 digits.val * 10 ^ 0 = _
      unfold digitsValue
      rw [List.filter_eq_self.mpr fun c hc => List.all_eq_true.mp hall c (digits.property c hc),
        pow_zero, Nat.mul_one]
    have hread : parseNumberValue raw = i64FromStrRadix 16 digits.val := by
      unfold parseNumberValue
      rw [← h, Literal.text, stripHex_of_marked mark.property]
    rw [hread, hvalue]
    unfold i64FromStrRadix
    rw [fromStrRadix_digits fun c hc => toDigit_hex (digits.property c hc)]
    by_cases hempty : digits.val = []
    · have hill : ¬ Literal.WellFormed (.hex mark digits) := by
        rintro ⟨c, hc⟩
        rw [hempty] at hc
        cases hc
      rw [if_pos hempty]
      exact ⟨nofun, fun hwell => absurd hwell.1 hill⟩
    · have hwell : Literal.WellFormed (.hex mark digits) := List.exists_mem_of_ne_nil _ hempty
      rw [if_neg hempty, and_iff_right hwell, and_iff_right hnone]
      exact tryI64_nat _
  | decimal first more =>
    have hnone : ¬ Literal.Overscaled (.decimal first more) := fun hover =>
      Nat.not_succ_le_zero 38 hover.2
    have hvalue : (Literal.decimal first more).value = digitsValue 10 (first.val :: more.val) := by
      show digitsValue 10 (first.val :: more.val) * 10 ^ 0 = _
      rw [pow_zero, Nat.mul_one]
    have hhex : stripHex raw.toList = none := by
      rw [← h]
      exact stripHex_of_unmarked fun c hc =>
        (ne_of_decimal (more.property c (List.mem_of_mem_head? hc))).2
    have hsplit : splitExponent raw.toList = none := by
      rw [← h]
      refine splitExponent_none fun c hc => ?_
      obtain rfl | hc := List.mem_cons.mp hc
      · exact List.mem_cons_of_mem _ first.property
      · exact more.property c hc
    have hread : parseNumberValue raw =
        (parseI128 (withoutSeparators (first.val :: more.val))).bind tryI64 := by
      unfold parseNumberValue baseAndExponent
      rw [hhex, hsplit, ← h]
      rfl
    rw [hread, parseI128_base first.property more.property, hvalue,
      and_iff_right (show Literal.WellFormed (.decimal first more) from trivial),
      and_iff_right hnone]
    split_ifs with hle
    · exact tryI64_nat _
    · exact ⟨nofun, fun hfits => absurd hfits.1 (by omega)⟩
  | scientific first more mark exponent =>
    have hhex : stripHex raw.toList = none := by
      rw [← h]
      refine stripHex_of_unmarked fun c hc => ?_
      cases hmore : more.val with
      | nil =>
        rw [hmore] at hc
        obtain rfl := Option.some_inj.mp hc
        have hall : (['e', 'E'].all fun c => decide (c ∉ ['x', 'X'])) = true := by decide
        exact of_decide_eq_true (List.all_eq_true.mp hall _ mark.property)
      | cons d more' =>
        rw [hmore] at hc
        obtain rfl := Option.some_inj.mp hc
        exact (ne_of_decimal (more.property d (hmore ▸ List.mem_cons_self))).2
    have hsplit : splitExponent raw.toList = some (first.val :: more.val, exponent.val) := by
      rw [← h]
      refine splitExponent_some (fun c hc => ?_) mark.property
      obtain rfl | hc := List.mem_cons.mp hc
      · exact List.mem_cons_of_mem _ first.property
      · exact more.property c hc
    exact parseNumberValue_scientific hhex hsplit (parseI128_base first.property more.property)
      exponent.property

end

/-! ## the text of a number token -/

section
variable {source text : List Char} {bytes : List UInt8} {b : UInt8} {start stop : Nat}

/-- bytes of one class that are read on are characters of one class -/
theorem chars_of_bytes {p : UInt8 → Bool} {q : Char → Prop}
    (hpq : ∀ c : Char, c.toNat < 128 → p (ascii c) = true → q c) (hsmall : ∀ c ∈ text, c.toNat < 128)
    (h : text.map ascii = bytes.take (spanLength p bytes)) : ∀ c ∈ text, q c := by
  intro c hc
  have hmem : ascii c ∈ bytes.take (spanLength p bytes) := by
    rw [← h]
    exact List.mem_map_of_mem hc
  exact hpq c (hsmall c hc) (mem_take_spanLength hmem)

theorem of_ascii_all {q : Char → Bool} (h : (List.range 128).all (fun n => q (Char.ofNat n)) = true)
    {c : Char} (hc : c.toNat < 128) : q c = true := by
  have hq := List.all_eq_true.mp h c.toNat (List.mem_range.mpr hc)
  rwa [Char.ofNat_toNat] at hq

theorem mem_hexDigits {c : Char} (hc : c.toNat < 128) (h : isHexDigit (ascii c) = true) :
    c ∈ hexDigits := by
  have hall : (List.range 128).all (fun n =>
    !isHexDigit (ascii (Char.ofNat n)) || decide (Char.ofNat n ∈ hexDigits)) = true := by decide
  have hc := of_ascii_all (q := fun c => !isHexDigit (ascii c) || decide (c ∈ hexDigits)) hall hc
  rw [h, Bool.not_true, Bool.false_or] at hc
  exact of_decide_eq_true hc

theorem mem_decimalDigits {c : Char} (hc : c.toNat < 128) (h : isDigit (ascii c) = true) :
    c ∈ decimalDigits := by
  have hall : (List.range 128).all (fun n =>
    !isDigit (ascii (Char.ofNat n)) || decide (Char.ofNat n ∈ decimalDigits)) = true := by decide
  have hc := of_ascii_all (q := fun c => !isDigit (ascii c) || decide (c ∈ decimalDigits)) hall hc
  rw [h, Bool.not_true, Bool.false_or] at hc
  exact of_decide_eq_true hc

theorem ascii_inj {c d : Char} (hc : c.toNat < 128) (hd : d.toNat < 128) (h : ascii c = ascii d) :
    c = d := by
  have hnat := congrArg UInt8.toNat h
  unfold ascii at hnat
  rw [UInt8.toNat_ofNat', UInt8.toNat_ofNat', Nat.mod_eq_of_lt (by omega),
    Nat.mod_eq_of_lt (by omega)] at hnat
  exact Char.toNat_inj.mp hnat

theorem mem_digitOrSeparator {c : Char} (hc : c.toNat < 128)
    (h : isDigitOrSeparator (ascii c) = true) : c ∈ '_' :: decimalDigits := by
  unfold isDigitOrSeparator at h
  rw [Bool.or_eq_true, decide_eq_true_eq] at h
  obtain h | h := h
  · exact List.mem_cons_of_mem _ (mem_decimalDigits hc h)
  · rw [ascii_inj hc (by decide) h]
    exact List.mem_cons_self

theorem exists_first_more (hb : bytes[0]? = some b) (hdigit : isDigit b = true)
    (hsmall : ∀ c ∈ text, c.toNat < 128)
    (h : text.map ascii = bytes.take (spanLength isDigitOrSeparator bytes)) :
    ∃ (first : {c : Char // c ∈ decimalDigits}) (more : DecimalDigits),
      text = first.val :: more.val := by
  cases bytes with
  | nil => cases hb
  | cons b' bytes =>
    obtain rfl := Option.some_inj.mp hb
    have hsep : isDigitOrSeparator b' = true := by
      unfold isDigitOrSeparator
      rw [hdigit, Bool.true_or]
    rw [spanLength_cons, if_pos hsep, List.take_succ_cons] at h
    obtain ⟨c, more, rfl, hc, hmore⟩ := List.map_eq_cons_iff.mp h
    have hfirst := mem_decimalDigits (hsmall c List.mem_cons_self) (hc.symm ▸ hdigit)
    have hall := chars_of_bytes (fun _ => mem_digitOrSeparator)
      (fun d hd => hsmall d (List.mem_cons_of_mem _ hd)) hmore
    exact ⟨⟨c, hfirst⟩, ⟨more, hall⟩, rfl⟩

/-- the mark of a hexadecimal number or of an exponent -/
theorem mem_marks {c : Char} {x y : Char} (hc : c.toNat < 128) (hx : x.toNat < 128)
    (hy : y.toNat < 128) (h : ascii c = ascii x ∨ ascii c = ascii y) : c ∈ [x, y] := by
  obtain h | h := h
  · rw [ascii_inj hc hx h]
    exact List.mem_cons_self
  · rw [ascii_inj hc hy h]
    exact List.mem_cons_of_mem _ List.mem_cons_self

theorem take_getElem?_cons {α : Type} {l : List α} {a : α} {n : Nat} (h : l[n]? = some a) (k : Nat) :
    l.take (n + 1 + k) = l.take n ++ a :: (l.drop (n + 1)).take k := by
  obtain ⟨hlt, rfl⟩ := List.getElem?_eq_some_iff.mp h
  rw [List.take_add, List.take_succ_eq_append_getElem hlt, List.append_assoc]
  rfl

/-- **The text of a number token is a literal.** -/
theorem exists_literal (hb : bytes[0]? = some b) (hdigit : isDigit b = true)
    (htext : utf8 text = bytes.take (numberLength bytes)) :
    ∃ literal : Literal, literal.text = text := by
  unfold numberLength at htext
  dsimp only at htext
  split_ifs at htext with hhex hexponent
  · obtain ⟨hzero, hx⟩ := hhex
    obtain ⟨x, hsecond, hmark⟩ : ∃ x, bytes[1]? = some x ∧ (x = ascii 'x' ∨ x = ascii 'X') := by
      obtain h | h := hx
      · exact ⟨_, h, .inl rfl⟩
      · exact ⟨_, h, .inr rfl⟩
    obtain ⟨rest, rfl⟩ := exists_cons_cons hzero hsecond
    rw [Nat.add_comm 2, List.take_succ_cons, List.take_succ_cons] at htext
    have hbytes : ∀ c ∈ utf8 text, c < 128 := by
      intro c hc
      rw [htext] at hc
      obtain rfl | hc := List.mem_cons.mp hc
      · decide
      · obtain rfl | hc := List.mem_cons.mp hc
        · obtain rfl | rfl := hmark
          · decide
          · decide
        · exact lt_of_isHexDigit (mem_take_spanLength hc)
    obtain ⟨hascii, hsmall⟩ := utf8_of_ascii hbytes
    rw [hascii] at htext
    obtain ⟨zero, marked, rfl, hz, hmarked⟩ := List.map_eq_cons_iff.mp htext
    obtain ⟨mark, digits, rfl, hm, hdigits⟩ := List.map_eq_cons_iff.mp hmarked
    obtain rfl := ascii_inj (hsmall zero List.mem_cons_self) (by decide) hz
    have hin : mark ∈ ['x', 'X'] := by
      refine mem_marks (hsmall mark (List.mem_cons_of_mem _ List.mem_cons_self)) (by decide)
        (by decide) ?_
      rwa [hm]
    have hall := chars_of_bytes (fun _ => mem_hexDigits)
      (fun d hd => hsmall d (List.mem_cons_of_mem _ (List.mem_cons_of_mem _ hd))) hdigits
    exact ⟨.hex ⟨mark, hin⟩ ⟨digits, hall⟩, rfl⟩
  · obtain ⟨e, hat, hmark⟩ : ∃ e, bytes[spanLength isDigitOrSeparator bytes]? = some e ∧
        (e = ascii 'e' ∨ e = ascii 'E') := by
      obtain h | h := hexponent
      · exact ⟨_, h, .inl rfl⟩
      · exact ⟨_, h, .inr rfl⟩
    rw [take_getElem?_cons hat] at htext
    have hbytes : ∀ c ∈ utf8 text, c < 128 := by
      intro c hc
      rw [htext] at hc
      obtain hc | hc := List.mem_append.mp hc
      · exact lt_of_isDigitOrSeparator (mem_take_spanLength hc)
      · obtain rfl | hc := List.mem_cons.mp hc
        · obtain rfl | rfl := hmark
          · decide
          · decide
        · exact lt_of_isDigitOrSeparator (mem_take_spanLength hc)
    obtain ⟨hascii, hsmall⟩ := utf8_of_ascii hbytes
    rw [hascii] at htext
    obtain ⟨base, rest, rfl, hbase, hrest⟩ := List.map_eq_append_iff.mp htext
    obtain ⟨mark, exponent, rfl, hm, hexp⟩ := List.map_eq_cons_iff.mp hrest
    obtain ⟨first, more, rfl⟩ := exists_first_more hb hdigit
      (fun d hd => hsmall d (List.mem_append_left _ hd)) hbase
    have hin : mark ∈ ['e', 'E'] := by
      refine mem_marks (hsmall mark (List.mem_append_right _ List.mem_cons_self)) (by decide)
        (by decide) ?_
      rwa [hm]
    have hall := chars_of_bytes (fun _ => mem_digitOrSeparator)
      (fun d hd => hsmall d (List.mem_append_right _ (List.mem_cons_of_mem _ hd))) hexp
    exact ⟨.scientific first more ⟨mark, hin⟩ ⟨exponent, hall⟩, rfl⟩
  · have hbytes : ∀ c ∈ utf8 text, c < 128 := by
      intro c hc
      rw [htext] at hc
      exact lt_of_isDigitOrSeparator (mem_take_spanLength hc)
    obtain ⟨hascii, hsmall⟩ := utf8_of_ascii hbytes
    rw [hascii] at htext
    obtain ⟨first, more, rfl⟩ := exists_first_more hb hdigit hsmall htext
    exact ⟨.decimal first more, rfl⟩

end

/-! ### the tokens of a text -/

section
variable {jsonString : List Char → Except String String} {lexer next : Lexer} {b : UInt8}
  {kind : TokenKind} {tokens : List Token} {source : List Char}

/-- the number tokens are literals -/
def NumbersRead (tokens : List Token) : Prop :=
  ∀ raw span, ⟨.number raw, span⟩ ∈ tokens → ∃ literal : Literal, literal.text = raw.toList

theorem NumbersRead.push {start stop : Nat} (h : NumbersRead lexer.tokens)
    (hkind : ∀ raw, kind = .number raw → ∃ literal : Literal, literal.text = raw.toList) :
    NumbersRead (lexer.push kind start stop).tokens := by
  intro raw span hmem
  obtain hmem | hmem := List.mem_append.mp hmem
  · exact h raw span hmem
  · obtain ⟨hnumber, -⟩ := Token.mk.inj (List.mem_singleton.mp hmem)
    exact hkind raw hnumber.symm

theorem NumbersRead.pushNext {count : Nat} (h : NumbersRead lexer.tokens)
    (hkind : ∀ raw, kind ≠ .number raw) : NumbersRead (lexer.pushNext kind count).tokens :=
  NumbersRead.push (show NumbersRead (lexer.advance count).tokens from h)
    fun raw hnumber => absurd hnumber (hkind raw)

theorem errorAt_ne_ok {α : Type} {byteOffset : Nat} {message : String} {a : α} :
    lexer.errorAt byteOffset message ≠ .ok a := by
  obtain ⟨e, he⟩ := @errorAt_eq α lexer byteOffset message
  rw [he]
  exact nofun

theorem NumbersRead.lexNumber (h : NumbersRead lexer.tokens)
    (hb : lexer.bytes[lexer.pos]? = some b) (hdigit : isDigit b = true)
    (hstep : lexer.lexNumber = .ok next) : NumbersRead next.tokens := by
  obtain ⟨text, htext, hnext⟩ := bind_eq_ok.mp hstep
  obtain rfl := Except.ok.inj hnext
  have hbytes := utf8_slice (expect_eq_ok.mp htext)
  rw [Nat.add_sub_cancel_left] at hbytes
  have hfirst : lexer.rest[0]? = some b := by
    unfold Lexer.rest
    rw [List.getElem?_drop]
    exact hb
  obtain ⟨literal, hliteral⟩ := exists_literal hfirst hdigit hbytes
  refine NumbersRead.push (show NumbersRead (lexer.advance _).tokens from h)
    fun raw hraw => ⟨literal, ?_⟩
  rw [← TokenKind.number.inj hraw, String.toList_ofList]
  exact hliteral

/-- an iteration adds no number token but a literal -/
theorem NumbersRead.step (h : NumbersRead lexer.tokens) (hb : lexer.bytes[lexer.pos]? = some b)
    (hstep : lexer.step jsonString b = .ok next) : NumbersRead next.tokens := by
  unfold Lexer.step at hstep
  split_ifs at hstep with hspace hline hblock hquote hdigit hident harrow hsymbol
  · obtain rfl := Except.ok.inj hstep
    exact h
  · obtain rfl := Except.ok.inj hstep
    exact h
  · unfold Lexer.skipBlockComment at hstep
    split at hstep
    · obtain rfl := Except.ok.inj hstep
      exact h
    · exact absurd hstep errorAt_ne_ok
  · unfold Lexer.lexString at hstep
    split at hstep
    · obtain ⟨text, -, hstep⟩ := bind_eq_ok.mp hstep
      split at hstep
      · obtain rfl := Except.ok.inj hstep
        exact h.pushNext nofun
      · exact absurd hstep errorAt_ne_ok
    · exact absurd hstep errorAt_ne_ok
    · exact absurd hstep errorAt_ne_ok
  · exact h.lexNumber hb hdigit hstep
  · obtain ⟨text, -, hstep⟩ := bind_eq_ok.mp hstep
    dsimp only at hstep
    split_ifs at hstep
    · exact absurd hstep errorAt_ne_ok
    · split at hstep
      · exact absurd hstep errorAt_ne_ok
      · obtain rfl := Except.ok.inj hstep
        exact h.pushNext nofun
  · obtain rfl := Except.ok.inj hstep
    exact h.pushNext nofun
  · obtain rfl := Except.ok.inj hstep
    exact h.pushNext nofun
  · obtain ⟨after, -, hstep⟩ := bind_eq_ok.mp hstep
    obtain ⟨unexpected, -, hstep⟩ := bind_eq_ok.mp hstep
    exact absurd hstep errorAt_ne_ok

theorem NumbersRead.run {fuel : Nat} (h : NumbersRead lexer.tokens)
    (hrun : lexer.run jsonString fuel = some (.ok next)) : NumbersRead next.tokens := by
  induction fuel generalizing lexer with
  | zero => cases hrun
  | succ fuel ih =>
    cases hb : lexer.bytes[lexer.pos]? with
    | none =>
      rw [Lexer.run_end hb] at hrun
      obtain rfl := Except.ok.inj (Option.some_inj.mp hrun)
      exact NumbersRead.push h nofun
    | some b =>
      cases hstep : lexer.step jsonString b with
      | error e =>
        rw [Lexer.run_fail hb hstep] at hrun
        cases hrun
      | ok after =>
        rw [Lexer.run_next hb hstep] at hrun
        exact ih (h.step hb hstep) hrun

/-- **Every number token of a text is a literal.** -/
theorem lexArgentSource_numbers (h : lexArgentSource jsonString source = some (.ok tokens)) :
    NumbersRead tokens := by
  obtain ⟨result, hrun, hresult⟩ := Option.map_eq_some_iff.mp h
  obtain ⟨final, rfl, rfl⟩ := map_eq_ok hresult
  exact NumbersRead.run (fun _ _ hmem => absurd hmem List.not_mem_nil) hrun

end

/-! ## the reader of the parser -/

section
variable {SilSpan : Type} {newSpan : List Char → Nat → Nat → Option SilSpan} {parser : Parser}
  {raw : String} {start stop byteOffset : Nat} {next : Token} {unit : NumberUnit}
  {read : NumberExpr SilSpan × Parser}

/-- where a text can be cut, Silverscript has a span -/
def SpansText (newSpan : List Char → Nat → Nat → Option SilSpan) : Prop :=
  ∀ source start stop, (slice source start stop).isSome → (newSpan source start stop).isSome

theorem Parser.errorAt_ne_ok {α : Type} {message : String} {a : α} :
    parser.errorAt byteOffset message ≠ .ok a := by
  intro h
  obtain ⟨location, -, hfail⟩ := bind_eq_ok.mp (mapFault_eq_ok.mp h)
  cases hfail

theorem Parser.orErrorAt_eq_ok {α : Type} {x : Except String α} {a : α} :
    parser.orErrorAt byteOffset x = .ok a ↔ x = .ok a := by
  cases x with
  | error message => exact ⟨fun h => absurd h Parser.errorAt_ne_ok, nofun⟩
  | ok b =>
    constructor
    · intro h
      exact congrArg Except.ok (Except.ok.inj h)
    · intro h
      exact congrArg Except.ok (Except.ok.inj h)

theorem numberBeforeUnit_eq_ok {value : Int} :
    numberBeforeUnit raw = .ok value ↔ parseNumberValue raw = some value := by
  rw [← numberBeforeUnit_toOption]
  cases numberBeforeUnit raw with
  | error message => exact ⟨nofun, nofun⟩
  | ok number =>
    constructor
    · intro h
      exact congrArg some (Except.ok.inj h)
    · intro h
      exact congrArg Except.ok (Option.some_inj.mp h)

theorem unitScale_eq (name : String) :
    unitScale name = (NumberUnit.all.find? fun unit => TokenKind.ident name = .ident unit.name).map
      fun unit => ((unit.scale : Int), unit.temporal) := by
  simp only [TokenKind.ident.injEq]
  unfold unitScale
  split_ifs with h1 h2 h3 h4 h5 h6 h7 h8
  · subst h1
    rfl
  · subst h2
    rfl
  · subst h3
    rfl
  · subst h4
    rfl
  · subst h5
    rfl
  · subst h6
    rfl
  · subst h7
    rfl
  · subst h8
    rfl
  · have hnone : (NumberUnit.all.find? fun unit => decide (name = unit.name)) = none := by
      rw [List.find?_eq_none]
      intro unit _
      rw [decide_eq_true_eq]
      cases unit with
      | seconds => exact h1
      | minutes => exact h2
      | hours => exact h3
      | days => exact h4
      | weeks => exact h5
      | litras => exact h6
      | grains => exact h7
      | kas => exact h8
    rw [hnone]
    rfl

theorem unitAfter_eq (token : Token) : unitAfter token.kind =
    (unitOf token).map fun unit => ((unit.scale : Int), unit.temporal) := by
  unfold unitOf
  cases token.kind with
  | ident name => exact unitScale_eq name
  | _ => rfl

theorem parseNumberExpression_plain (hcurrent : parser.current = .ok next)
    (hunit : unitOf next = none) :
    parser.parseNumberExpression newSpan raw start stop = .ok read ↔
      ∃ value span, parseNumberValue raw = some value ∧
        newSpan parser.file.text start stop = some span ∧ read = (⟨.int value, span⟩, parser) := by
  have hscale : unitAfter next.kind = none := by
    rw [unitAfter_eq, hunit]
    rfl
  unfold Parser.parseNumberExpression
  rw [bind_eq_ok]
  constructor
  · rintro ⟨value, hvalue, h⟩
    rw [hcurrent, ok_bind, hscale] at h
    obtain ⟨span, hspan, hread⟩ := bind_eq_ok.mp h
    have hnumber := numberBeforeUnit_eq_ok.mp (Parser.orErrorAt_eq_ok.mp hvalue)
    exact ⟨value, span, hnumber, expect_eq_ok.mp hspan, (Except.ok.inj hread).symm⟩
  · rintro ⟨value, span, hvalue, hspan, rfl⟩
    refine ⟨value, Parser.orErrorAt_eq_ok.mpr (numberBeforeUnit_eq_ok.mpr hvalue), ?_⟩
    rw [hcurrent, ok_bind, hscale]
    exact bind_eq_ok.mpr ⟨span, expect_eq_ok.mpr hspan, rfl⟩

theorem parseNumberExpression_unit (hcurrent : parser.current = .ok next)
    (hunit : unitOf next = some unit) :
    parser.parseNumberExpression newSpan raw start stop = .ok read ↔
      ∃ value scaled span, parseNumberValue raw = some value ∧
        checkedMulI64 value unit.scale = some scaled ∧
        newSpan parser.file.text start next.span.stop = some span ∧
        read = (⟨if unit.temporal then .temporal scaled else .int scaled, span⟩,
          { parser with pos := parser.pos + 1 }) := by
  have hkind : next.kind = .ident unit.name := by
    unfold unitOf at hunit
    have hfound := List.find?_some hunit
    exact of_decide_eq_true hfound
  have hscale : unitAfter next.kind = some ((unit.scale : Int), unit.temporal) := by
    rw [unitAfter_eq, hunit]
    rfl
  have hadvance : parser.advance = .ok { parser with pos := parser.pos + 1 } := by
    unfold Parser.advance
    rw [hcurrent, ok_bind, hkind, if_neg nofun]
    rfl
  unfold Parser.parseNumberExpression
  rw [bind_eq_ok]
  constructor
  · rintro ⟨value, hvalue, h⟩
    rw [hcurrent, ok_bind, hscale] at h
    dsimp only at h
    rw [hadvance, ok_bind] at h
    obtain ⟨scaled, hscaled, h⟩ := bind_eq_ok.mp h
    obtain ⟨span, hspan, hread⟩ := bind_eq_ok.mp h
    have hnumber := numberBeforeUnit_eq_ok.mp (Parser.orErrorAt_eq_ok.mp hvalue)
    exact ⟨value, scaled, span, hnumber, okOr_eq_ok.mp (Parser.orErrorAt_eq_ok.mp hscaled),
      expect_eq_ok.mp hspan, (Except.ok.inj hread).symm⟩
  · rintro ⟨value, scaled, span, hvalue, hscaled, hspan, rfl⟩
    refine ⟨value, Parser.orErrorAt_eq_ok.mpr (numberBeforeUnit_eq_ok.mpr hvalue), ?_⟩
    rw [hcurrent, ok_bind, hscale]
    dsimp only
    rw [hadvance, ok_bind]
    refine bind_eq_ok.mpr ⟨scaled, Parser.orErrorAt_eq_ok.mpr (okOr_eq_ok.mpr hscaled), ?_⟩
    exact bind_eq_ok.mpr ⟨span, expect_eq_ok.mpr hspan, rfl⟩

theorem Literal.Overscaled.wellFormed {literal : Literal} (h : literal.Overscaled) :
    literal.WellFormed := by
  cases literal with
  | hex mark digits => exact absurd h.2 (Nat.not_succ_le_zero 38)
  | decimal first more => trivial
  | scientific first more mark exponent =>
    by_contra hnone
    have hempty := (withoutSeparators_eq_nil exponent.property).mpr hnone
    have hzero : digitsValue 10 exponent.val = 0 := by
      unfold digitsValue
      rw [show exponent.val.filter (fun c => c != '_') = [] from hempty]
      rfl
    have hlarge : 39 ≤ digitsValue 10 exponent.val := h.2
    omega

theorem NumberUnit.one_le_scale (unit : NumberUnit) : 1 ≤ unit.scale := by
  cases unit <;> decide

theorem checkedMulI64_nat (a b : Nat) {scaled : Int} : checkedMulI64 a b = some scaled ↔
    ((a * b : Nat) : Int) ≤ 2 ^ 63 - 1 ∧ scaled = (a * b : Nat) := by
  unfold checkedMulI64
  rw [← Int.natCast_mul]
  exact tryI64_nat _

variable {literal : Literal}

/-- a literal that a reader can scale is read as its value -/
theorem readExactly_plain (hcurrent : parser.current = .ok next) (hunit : unitOf next = none)
    (hspan : (newSpan parser.file.text start stop).isSome) (htext : literal.text = raw.toList)
    (hscaled : ¬ literal.Overscaled) :
    ReadExactly literal none raw (parser.parseNumberExpression newSpan raw start stop) := by
  obtain ⟨span, hspan⟩ := Option.isSome_iff_exists.mp hspan
  refine ⟨⟨?_, ?_⟩, ?_, ?_⟩
  · rintro ⟨read, hread⟩
    obtain ⟨value, _, hvalue, -, -⟩ := (parseNumberExpression_plain hcurrent hunit).mp hread
    obtain ⟨hwell, -, hle, -⟩ := (parseNumberValue_eq htext).mp hvalue
    exact ⟨hwell, hle⟩
  · rintro ⟨hwell, hle⟩
    have hvalue := (parseNumberValue_eq htext).mpr ⟨hwell, hscaled, hle, rfl⟩
    exact ⟨_, (parseNumberExpression_plain hcurrent hunit).mpr ⟨_, span, hvalue, hspan, rfl⟩⟩
  · intro read hread
    obtain ⟨value, _, hvalue, -, rfl⟩ := (parseNumberExpression_plain hcurrent hunit).mp hread
    obtain ⟨-, -, -, rfl⟩ := (parseNumberValue_eq htext).mp hvalue
    rfl
  · intro _ value
    constructor
    · intro hvalue
      exact ⟨_, (parseNumberExpression_plain hcurrent hunit).mpr ⟨value, span, hvalue, hspan, rfl⟩, rfl⟩
    · rintro ⟨read, hread, hkind⟩
      obtain ⟨value', _, hvalue, -, rfl⟩ := (parseNumberExpression_plain hcurrent hunit).mp hread
      rwa [NumberKind.int.inj hkind] at hvalue

theorem readExactly_unit (hcurrent : parser.current = .ok next) (hunit : unitOf next = some unit)
    (hspan : (newSpan parser.file.text start next.span.stop).isSome)
    (htext : literal.text = raw.toList) (hscaled : ¬ literal.Overscaled) :
    ReadExactly literal (some unit) raw (parser.parseNumberExpression newSpan raw start stop) := by
  obtain ⟨span, hspan⟩ := Option.isSome_iff_exists.mp hspan
  refine ⟨⟨?_, ?_⟩, ?_, nofun⟩
  · rintro ⟨read, hread⟩
    obtain ⟨value, scaled, _, hvalue, hmul, -, -⟩ :=
      (parseNumberExpression_unit hcurrent hunit).mp hread
    obtain ⟨hwell, -, -, rfl⟩ := (parseNumberValue_eq htext).mp hvalue
    exact ⟨hwell, ((checkedMulI64_nat _ _).mp hmul).1⟩
  · rintro ⟨hwell, hle⟩
    have hvalue : (literal.value : Int) ≤ 2 ^ 63 - 1 := by
      have hscale := Nat.le_mul_of_pos_right literal.value unit.one_le_scale
      have hfits : ((literal.value * unit.scale : Nat) : Int) ≤ 2 ^ 63 - 1 := hle
      omega
    have hread := (parseNumberValue_eq htext).mpr ⟨hwell, hscaled, hvalue, rfl⟩
    exact ⟨_, (parseNumberExpression_unit hcurrent hunit).mpr
      ⟨_, _, span, hread, (checkedMulI64_nat _ _).mpr ⟨hle, rfl⟩, hspan, rfl⟩⟩
  · intro read hread
    obtain ⟨value, scaled, _, hvalue, hmul, -, rfl⟩ :=
      (parseNumberExpression_unit hcurrent hunit).mp hread
    obtain ⟨-, -, -, rfl⟩ := (parseNumberValue_eq htext).mp hvalue
    obtain ⟨-, rfl⟩ := (checkedMulI64_nat _ _).mp hmul
    rfl

/-- a zero with a large exponent is not read -/
theorem not_readExactly (hcurrent : parser.current = .ok next) (htext : literal.text = raw.toList)
    (hover : literal.Overscaled) : ¬ ReadExactly literal (unitOf next) raw
      (parser.parseNumberExpression newSpan raw start stop) := by
  intro h
  have hvalue : literal.value = 0 := by
    unfold Literal.value
    rw [hover.1, Nat.zero_mul]
  have hzero : scaledValue literal (unitOf next) = 0 := by
    cases unitOf next with
    | none => exact hvalue
    | some unit => exact (congrArg (· * unit.scale) hvalue).trans (Nat.zero_mul _)
  have hle : (scaledValue literal (unitOf next) : Int) ≤ 2 ^ 63 - 1 := by
    rw [hzero]
    norm_num
  obtain ⟨read, hread⟩ := h.succeeds.mpr ⟨hover.wellFormed, hle⟩
  have hnumber : ∃ value, parseNumberValue raw = some value := by
    cases hunit : unitOf next with
    | none =>
      obtain ⟨value, _, hnumber, -, -⟩ := (parseNumberExpression_plain hcurrent hunit).mp hread
      exact ⟨value, hnumber⟩
    | some unit =>
      obtain ⟨value, _, _, hnumber, -⟩ := (parseNumberExpression_unit hcurrent hunit).mp hread
      exact ⟨value, hnumber⟩
  obtain ⟨value, hnumber⟩ := hnumber
  exact ((parseNumberValue_eq htext).mp hnumber).2.1 hover

end

/-! ## the tokens of a file -/

section
variable {SilSpan : Type} {newSpan : List Char → Nat → Nat → Option SilSpan}
  {jsonString : List Char → Except String String} {file : SourceFile} {tokens : List Token}
  {i : Nat} {raw : String} {span : Span}

/-- a token stands behind each number, and the text can be cut at the ends of both -/
theorem Tiles.next_of_number {source : List Char} (h : Tiles jsonString source tokens)
    (hat : tokens[i]? = some ⟨.number raw, span⟩) : ∃ next, tokens[i + 1]? = some next ∧
      (slice source span.start span.stop).isSome ∧
      (slice source span.start next.span.stop).isSome := by
  obtain ⟨hlt, hget⟩ := List.getElem?_eq_some_iff.mp hat
  have hnext : i + 1 < tokens.length := by
    by_contra hlast
    have hend := h.last
    rw [List.getLast?_eq_getElem?, show tokens.length - 1 = i by omega, hat] at hend
    cases hend
  have hordered := List.pairwise_iff_getElem.mp h.ordered i (i + 1) hlt hnext (Nat.lt_succ_self i)
  rw [hget] at hordered
  obtain ⟨text, htext, -⟩ := h.texts _ (hget ▸ List.getElem_mem hlt)
  obtain ⟨text', htext', -⟩ := h.texts _ (List.getElem_mem hnext)
  have hfirst : slice source span.start span.stop = some text := htext
  have hle : span.start ≤ span.stop := (slice_eq_some hfirst).1
  refine ⟨tokens[i + 1], List.getElem?_eq_getElem hnext, ?_, ?_⟩
  · rw [hfirst]
    rfl
  · exact slice_hull hfirst htext' (hle.trans hordered)

/-- **A number token is a literal, and with the unit behind it, if any, it is read as its exact value,
if and only if it is no zero whose exponent is 39 or more.** -/
theorem parseNumberExpression_exact_iff (hspans : SpansText newSpan)
    (hlex : lexArgentSource jsonString file.text = some (.ok tokens))
    (hat : tokens[i]? = some ⟨.number raw, span⟩) :
    (∃ literal : Literal, literal.text = raw.toList) ∧ ∃ next, tokens[i + 1]? = some next ∧
      ∀ literal : Literal, literal.text = raw.toList →
        (ReadExactly literal (unitOf next) raw
          (Parser.parseNumberExpression newSpan ⟨file, tokens, i + 1⟩ raw span.start span.stop) ↔
            ¬ literal.Overscaled) := by
  obtain ⟨result, hresult, -, htiles⟩ := lexArgentSource_tiles jsonString file.text
  rw [hlex, Option.some_inj] at hresult
  obtain ⟨next, hnext, hslice, hhull⟩ := (htiles tokens hresult.symm).next_of_number hat
  have hcurrent : Parser.current ⟨file, tokens, i + 1⟩ = .ok next := indexAt_of_eq hnext
  refine ⟨lexArgentSource_numbers hlex raw span (List.mem_of_getElem? hat), next, hnext,
    fun literal htext => ⟨fun h hover => not_readExactly hcurrent htext hover h, fun hscaled => ?_⟩⟩
  cases hunit : unitOf next with
  | none => exact readExactly_plain hcurrent hunit (hspans _ _ _ hslice) htext hscaled
  | some unit => exact readExactly_unit hcurrent hunit (hspans _ _ _ hhull) htext hscaled

end

/-! ### two texts -/

def sliceSpan (source : List Char) (start stop : Nat) : Option Span :=
  (slice source start stop).map fun _ => ⟨start, stop⟩

theorem sliceSpan_spans : SpansText sliceSpan := by
  intro source start stop h
  unfold sliceSpan
  rwa [Option.isSome_map]

def delayFile : SourceFile := ⟨"delay.ag", "1_5e2 minutes".toList⟩

def delayTokens : List Token :=
  [⟨.number "1_5e2", ⟨0, 5⟩⟩, ⟨.ident "minutes", ⟨6, 13⟩⟩, ⟨.eof, ⟨13, 13⟩⟩]

def decimalRun (digits : List Char)
    (h : (digits.all fun c => decide (c ∈ '_' :: decimalDigits)) = true) : DecimalDigits :=
  ⟨digits, fun c hc => of_decide_eq_true (List.all_eq_true.mp h c hc)⟩

def delayLiteral : Literal :=
  .scientific ⟨'1', by decide⟩ (decimalRun ['_', '5'] (by decide)) ⟨'e', by decide⟩
    (decimalRun ['2'] (by decide))

theorem delay_lexes : lexArgentSource quoted delayFile.text = some (.ok delayTokens) := by rfl

theorem parseNumberExpression_exact_iff_delay : ReadExactly delayLiteral (some .minutes) "1_5e2"
    (Parser.parseNumberExpression sliceSpan ⟨delayFile, delayTokens, 1⟩ "1_5e2" 0 5) := by
  obtain ⟨-, next, hnext, hread⟩ :=
    @parseNumberExpression_exact_iff _ _ _ _ _ 0 _ _ sliceSpan_spans delay_lexes rfl
  obtain rfl := Option.some_inj.mp hnext
  refine (hread delayLiteral (by decide)).mpr fun hover => ?_
  exact absurd hover.2 (by decide)

def zeroFile : SourceFile := ⟨"zero.ag", "0e39".toList⟩

def zeroTokens : List Token := [⟨.number "0e39", ⟨0, 4⟩⟩, ⟨.eof, ⟨4, 4⟩⟩]

def zeroLiteral : Literal :=
  .scientific ⟨'0', by decide⟩ (decimalRun [] rfl) ⟨'e', by decide⟩
    (decimalRun ['3', '9'] (by decide))

/-- a zero is not read when the power of ten overflows -/
theorem zero_not_read : lexArgentSource quoted zeroFile.text = some (.ok zeroTokens) ∧
    zeroLiteral.text = "0e39".toList ∧ zeroLiteral.WellFormed ∧ zeroLiteral.value = 0 ∧
    (∀ read, Parser.parseNumberExpression sliceSpan ⟨zeroFile, zeroTokens, 1⟩ "0e39" 0 4 ≠
      .ok read) ∧
    ¬ ReadExactly zeroLiteral none "0e39"
      (Parser.parseNumberExpression sliceSpan ⟨zeroFile, zeroTokens, 1⟩ "0e39" 0 4) := by
  have hvalue : zeroLiteral.value = 0 := by decide
  have hwell : zeroLiteral.WellFormed := ⟨'3', List.mem_cons_self, by decide⟩
  have hfails : ∀ read, Parser.parseNumberExpression sliceSpan ⟨zeroFile, zeroTokens, 1⟩ "0e39" 0 4 ≠
      .ok read := by
    intro read hread
    have hcurrent : Parser.current ⟨zeroFile, zeroTokens, 1⟩ = .ok ⟨.eof, ⟨4, 4⟩⟩ := rfl
    obtain ⟨value, _, hnumber, -⟩ := (parseNumberExpression_plain hcurrent rfl).mp hread
    have hnone : parseNumberValue "0e39" = none := by decide
    rw [hnone] at hnumber
    cases hnumber
  refine ⟨rfl, by decide, hwell, hvalue, hfails, fun h => ?_⟩
  obtain ⟨read, hread⟩ := h.succeeds.mpr ⟨hwell, by decide⟩
  exact hfails read hread

end Argent.Syntax
