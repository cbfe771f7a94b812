import Argent.Syntax.Lexer
import Mathlib.Algebra.Ring.Int.Defs

/-!
# Number literals

`compiler/syntax/lexer.rs` and `compiler/syntax/parser/expr.rs`.  A number token keeps its text: the
lexer reads the integers that stand outside expressions, the parser of expressions reads the others and
the unit after them.  Silverscript's constructor of spans is a parameter.

* `parseNumberValue`          the reader of the lexer;
* `Parser.parseNumberExpression`      the reader of the parser.
-/

set_option linter.unusedSectionVars false

namespace Argent.Syntax
open Argent.Fallible Argent.Utf8

/-! ## machine integers -/

/-- a value that lies between `low` and `high` -/
def within (low high value : Int) : Option Int :=
  if low ≤ value ∧ value ≤ high then some value else none

/-- `i64::try_from` -/
def tryI64 (value : Int) : Option Int := within (-2 ^ 63) (2 ^ 63 - 1) value

def withinI128 (value : Int) : Option Int := within (-2 ^ 127) (2 ^ 127 - 1) value

/-- `i128::checked_mul` -/
def checkedMulI128 (a b : Int) : Option Int := withinI128 (a * b)

/-- `i64::checked_mul` -/
def checkedMulI64 (a b : Int) : Option Int := tryI64 (a * b)

/-- `i128::checked_pow` -/
def checkedPowI128 (base : Int) : Nat → Option Int
  | 0 => some 1
  | exponent + 1 => do checkedMulI128 (← checkedPowI128 base exponent) base

/-! ## integers in a text -/

/-- `c.to_digit(radix)` -/
def toDigit (radix : Nat) (c : Char) : Option Nat :=
  let digit :=
    if '0' ≤ c ∧ c ≤ '9' then some (c.toNat - '0'.toNat)
    else if 'a' ≤ c ∧ c ≤ 'z' then some (c.toNat - 'a'.toNat + 10)
    else if 'A' ≤ c ∧ c ≤ 'Z' then some (c.toNat - 'A'.toNat + 10)
    else none
  digit.filter fun digit => digit < radix

def readDigits (radix : Nat) (digits : List Char) : Option Nat :=
  digits.foldlM (fun value c => (toDigit radix c).map fun digit => value * radix + digit) 0

/-- `from_str_radix` of the integers between `low` and `high` -/
def fromStrRadix (low high : Int) (radix : Nat) (text : List Char) : Option Int :=
  let (negative, digits) :=
    match text with
    | '+' :: digits => (false, digits)
    | '-' :: digits => if low < 0 then (true, digits) else (false, text)
    | _ => (false, text)
  if digits = [] then none
  else do
    let value ← readDigits radix digits
    within low high (if negative then -(value : Int) else value)

def i64FromStrRadix : Nat → List Char → Option Int := fromStrRadix (-2 ^ 63) (2 ^ 63 - 1)

/-- `text.parse::<i128>()` -/
def parseI128 : List Char → Option Int := fromStrRadix (-2 ^ 127) (2 ^ 127 - 1) 10

/-- `text.parse::<u32>()` -/
def parseU32 (text : List Char) : Option Nat := (fromStrRadix 0 (2 ^ 32 - 1) 10 text).map Int.toNat

/-! ## the parts of a token -/

/-- `raw.strip_prefix("0x").or_else(|| raw.strip_prefix("0X"))` -/
def stripHex : List Char → Option (List Char)
  | '0' :: 'x' :: hex => some hex
  | '0' :: 'X' :: hex => some hex
  | _ => none

/-- `raw.split_once(['e', 'E'])` -/
def splitExponent : List Char → Option (List Char × List Char)
  | [] => none
  | c :: text =>
    if c = 'e' ∨ c = 'E' then some ([], text)
    else (splitExponent text).map fun parts => (c :: parts.1, parts.2)

/-- `split_once(['e', 'E']).map_or((raw, None), |(base, exponent)| (base, Some(exponent)))` -/
def baseAndExponent (raw : List Char) : List Char × Option (List Char) :=
  match splitExponent raw with
  | some (base, exponent) => (base, some exponent)
  | none => (raw, none)

/-- `text.replace('_', "")` -/
def withoutSeparators (text : List Char) : List Char := text.filter fun c => c != '_'

/-! ## the reader of the lexer -/

def parseNumberValue (raw : String) : Option Int :=
  match stripHex raw.toList with
  | some hex => i64FromStrRadix 16 hex
  | none => do
    let (base, exponent) := baseAndExponent raw.toList
    let value ← parseI128 (withoutSeparators base)
    let value ←
      match exponent with
      | some exponent => do
        let exponent ← parseU32 (withoutSeparators exponent)
        checkedMulI128 value (← checkedPowI128 10 exponent)
      | none => some value
    tryI64 value

/-! ## the reader of the parser -/

structure SourceFile where
  displayPath : String
  text : List Char
deriving DecidableEq, Repr

/-- an error at a place of a file -/
structure FileError where
  path : String
  error : ArgentError
deriving DecidableEq, Repr

structure Parser where
  file : SourceFile
  tokens : List Token
  pos : Nat
deriving DecidableEq, Repr

inductive NumberKind where
  | int (value : Int)
  | temporal (value : Int)
deriving DecidableEq, Repr

/-- an expression that is a number literal -/
structure NumberExpr (SilSpan : Type) where
  kind : NumberKind
  span : SilSpan
deriving DecidableEq, Repr

/-- the scale of a unit, and whether it is one of time -/
def unitScale (unit : String) : Option (Int × Bool) :=
  if unit = "seconds" then some (1000, true)
  else if unit = "minutes" then some (60000, true)
  else if unit = "hours" then some (3600000, true)
  else if unit = "days" then some (86400000, true)
  else if unit = "weeks" then some (604800000, true)
  else if unit = "litras" then some (1, false)
  else if unit = "grains" then some (100000, false)
  else if unit = "kas" then some (100000000, false)
  else none

/-- the unit that a token names -/
def unitAfter : TokenKind → Option (Int × Bool)
  | .ident unit => unitScale unit
  | _ => none

/-- the number before the unit, or the message of the error -/
def numberBeforeUnit (raw : String) : Except String Int :=
  match stripHex raw.toList with
  | some hex => okOr (i64FromStrRadix 16 hex) s!"invalid hex literal `{raw}`"
  | none => do
    let (base, exponent) := baseAndExponent raw.toList
    let value ← okOr (parseI128 (withoutSeparators base)) s!"invalid number literal `{raw}`"
    let value ←
      match exponent with
      | some exponent => do
        let exponent ← okOr (parseU32 (withoutSeparators exponent)) "invalid exponent"
        let scale ← okOr (checkedPowI128 10 exponent) "number literal overflow"
        okOr (checkedMulI128 value scale) "number literal overflow"
      | none => .ok value
    okOr (tryI64 value) "number literal overflow"

namespace Parser

def current (parser : Parser) : Except (Fault FileError) Token := indexAt parser.tokens parser.pos

def advance (parser : Parser) : Except (Fault FileError) Parser := do
  let token ← parser.current
  return if token.kind = .eof then parser else { parser with pos := parser.pos + 1 }

/-- `Err(self.file.error_at(offset, message))` -/
def errorAt {α : Type} (parser : Parser) (byteOffset : Nat) (message : String) :
    Except (Fault FileError) α :=
  mapFault (fun error => ⟨parser.file.displayPath, error⟩) do
    let location ← sourceLocation parser.file.text byteOffset
    fail ⟨location, message⟩

/-- `x.map_err(|_| self.file.error_at(offset, message))` -/
def orErrorAt {α : Type} (parser : Parser) (byteOffset : Nat) (x : Except String α) :
    Except (Fault FileError) α :=
  match x with
  | .ok a => .ok a
  | .error message => parser.errorAt byteOffset message

variable {SilSpan : Type} (newSpan : List Char → Nat → Nat → Option SilSpan)

def silSpan (parser : Parser) (start stop : Nat) : Except (Fault FileError) SilSpan :=
  expect (newSpan parser.file.text start stop) "token spans lie within their immutable source"

/-- the literal, and the parser behind it and its unit -/
def parseNumberExpression (parser : Parser) (raw : String) (start stop : Nat) :
    Except (Fault FileError) (NumberExpr SilSpan × Parser) := do
  let value ← parser.orErrorAt start (numberBeforeUnit raw)
  let current ← parser.current
  match unitAfter current.kind with
  | some (scale, temporal) =>
    let after ← parser.advance
    let scaled ← after.orErrorAt start (okOr (checkedMulI64 value scale) "number unit overflow")
    let span ← after.silSpan newSpan start current.span.stop
    return (⟨if temporal then .temporal scaled else .int scaled, span⟩, after)
  | none => return (⟨.int value, ← parser.silSpan newSpan start stop⟩, parser)

end Parser

end Argent.Syntax
