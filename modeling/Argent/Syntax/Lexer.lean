import Argent.Base.Panics
import Argent.Base.Utf8

/-!
# Tokenization

`compiler/syntax/lexer.rs`, with the source locations of `error.rs`.  A source text is a sequence of
characters; the scanner works on its bytes and cuts the text at byte positions.  The parser of string
literals is a parameter.

* `Lexer.step`          one iteration of the scanner's loop;
* `lexArgentSource`      the tokens of a source text.
-/

set_option linter.unusedSectionVars false

namespace Argent.Syntax
open Argent.Fallible Argent.Utf8

def RESERVED_GENERATED_PREFIX : String := "gen__"
def RESERVED_GENERATED_TYPE_PREFIX : String := "Gen__"
def COVENANT_ID : String := "cov_id"
def LEGACY_COVENANT_ID : String := "covid"

/-! ## errors -/

structure SourceLocation where
  line : Nat
  column : Nat
  byteOffset : Nat
deriving DecidableEq, Repr

/-- an error in a source text, before its file is known -/
structure ArgentError where
  location : SourceLocation
  message : String
deriving DecidableEq, Repr

/-- `while !source.is_char_boundary(offset) { offset -= 1 }` -/
def floorBoundary (source : List Char) : Nat → Nat
  | 0 => 0
  | offset + 1 =>
    if isCharBoundary source (offset + 1) then offset + 1 else floorBoundary source offset

/-- `source[start..stop]`, which panics inside a character -/
def sliceAt (source : List Char) (start stop : Nat) : Except (Fault ArgentError) (List Char) :=
  expect (slice source start stop) "byte index is not a char boundary"

def sourceLocation (source : List Char) (byteOffset : Nat) :
    Except (Fault ArgentError) SourceLocation := do
  let byteOffset := floorBoundary source (min byteOffset (utf8 source).length)
  let before ← sliceAt source 0 byteOffset
  let line := before.count '\n' + 1
  let column := (before.reverse.takeWhile fun c => c != '\n').length + 1
  return ⟨line, column, byteOffset⟩

/-! ## tokens -/

inductive TokenKind where
  | ident (name : String)
  | number (text : String)
  | str (value : String)
  | arrow
  | symbol (symbol : Char)
  | eof
deriving DecidableEq, Repr

structure Span where
  start : Nat
  stop : Nat
deriving DecidableEq, Repr

structure Token where
  kind : TokenKind
  span : Span
deriving DecidableEq, Repr

/-! ## classes of bytes -/

def isSpace (b : UInt8) : Bool := [' ', '\t', '\r', '\n'].any fun c => b = ascii c

def isBetween (first last : Char) (b : UInt8) : Bool := ascii first ≤ b && b ≤ ascii last

def isDigit : UInt8 → Bool := isBetween '0' '9'

def isHexDigit (b : UInt8) : Bool := isDigit b || isBetween 'a' 'f' b || isBetween 'A' 'F' b

def isDigitOrSeparator (b : UInt8) : Bool := isDigit b || b = ascii '_'

def isIdentStart (b : UInt8) : Bool := isBetween 'a' 'z' b || isBetween 'A' 'Z' b || b = ascii '_'

def isIdentByte (b : UInt8) : Bool := isIdentStart b || isDigit b

def isSymbol (b : UInt8) : Bool :=
  ['{', '}', '(', ')', '[', ']', ';', ':', ',', '|', '&', '^', '!', '=', '+', '-', '*', '/', '%', '<',
    '>', '.'].any fun c => b = ascii c

/-! ## the lengths of what is scanned -/

/-- how many bytes a loop passes that reads on while `p` holds -/
def spanLength (p : UInt8 → Bool) (rest : List UInt8) : Nat := (rest.takeWhile p).length

/-- how many bytes close a block comment that is `depth` comments deep -/
def closeBlock (depth : Nat) : List UInt8 → Option Nat
  | [] => none
  | [_] => none
  | b :: b' :: rest =>
    if b = ascii '/' ∧ b' = ascii '*' then (closeBlock (depth + 1) rest).map (· + 2)
    else if b = ascii '*' ∧ b' = ascii '/' then
      if depth = 1 then some 2 else (closeBlock (depth - 1) rest).map (· + 2)
    else (closeBlock depth (b' :: rest)).map (· + 1)

/-- why a string literal does not end -/
inductive StringEnd where
  | unterminated
  | unterminatedEscape
deriving DecidableEq, Repr

/-- how many bytes close a string literal -/
def closeString : List UInt8 → Except StringEnd Nat
  | [] => .error .unterminated
  | [b] =>
    if b = ascii '"' then .ok 1
    else if b = ascii '\\' then .error .unterminatedEscape
    else .error .unterminated
  | b :: b' :: rest =>
    if b = ascii '"' then .ok 1
    else if b = ascii '\\' then (closeString rest).map (· + 2)
    else (closeString (b' :: rest)).map (· + 1)

/-- how many bytes a number has -/
def numberLength (rest : List UInt8) : Nat :=
  if rest[0]? = some (ascii '0') ∧ (rest[1]? = some (ascii 'x') ∨ rest[1]? = some (ascii 'X')) then
    2 + spanLength isHexDigit (rest.drop 2)
  else
    let digits := spanLength isDigitOrSeparator rest
    if rest[digits]? = some (ascii 'e') ∨ rest[digits]? = some (ascii 'E') then
      digits + 1 + spanLength isDigitOrSeparator (rest.drop (digits + 1))
    else digits

/-! ## the scanner -/

structure Lexer where
  source : List Char
  pos : Nat
  tokens : List Token
deriving DecidableEq, Repr

namespace Lexer

def bytes (lexer : Lexer) : List UInt8 := utf8 lexer.source

/-- the bytes that are not read yet -/
def rest (lexer : Lexer) : List UInt8 := lexer.bytes.drop lexer.pos

def peekByte (lexer : Lexer) (offset : Nat) : Option UInt8 := lexer.bytes[lexer.pos + offset]?

def advance (lexer : Lexer) (count : Nat) : Lexer := { lexer with pos := lexer.pos + count }

def push (lexer : Lexer) (kind : TokenKind) (start stop : Nat) : Lexer :=
  { lexer with tokens := lexer.tokens ++ [⟨kind, ⟨start, stop⟩⟩] }

/-- `return Err(self.error_at(offset, message))` -/
def errorAt {α : Type} (lexer : Lexer) (byteOffset : Nat) (message : String) :
    Except (Fault ArgentError) α := do
  let location ← sourceLocation lexer.source byteOffset
  fail ⟨location, message⟩

def skipLineComment (lexer : Lexer) : Lexer :=
  lexer.advance (spanLength (fun b => b != ascii '\n') lexer.rest)

def skipBlockComment (lexer : Lexer) : Except (Fault ArgentError) Lexer :=
  match closeBlock 1 (lexer.rest.drop 2) with
  | some count => .ok (lexer.advance (2 + count))
  | none => lexer.errorAt lexer.pos "unterminated block comment"

/-- the token of the next `count` bytes -/
def pushNext (lexer : Lexer) (kind : TokenKind) (count : Nat) : Lexer :=
  (lexer.advance count).push kind lexer.pos (lexer.pos + count)

variable (jsonString : List Char → Except String String)

def lexString (lexer : Lexer) : Except (Fault ArgentError) Lexer :=
  match closeString (lexer.rest.drop 1) with
  | .ok count => do
    let text ← sliceAt lexer.source lexer.pos (lexer.pos + (1 + count))
    match jsonString text with
    | .ok value => return lexer.pushNext (.str value) (1 + count)
    | .error err => lexer.errorAt lexer.pos s!"invalid string literal: {err}"
  | .error .unterminatedEscape =>
    lexer.errorAt lexer.bytes.length "unterminated string escape"
  | .error .unterminated => lexer.errorAt lexer.pos "unterminated string"

def lexNumber (lexer : Lexer) : Except (Fault ArgentError) Lexer := do
  let count := numberLength lexer.rest
  let text ← sliceAt lexer.source lexer.pos (lexer.pos + count)
  return lexer.pushNext (.number (String.ofList text)) count

def lexIdent (lexer : Lexer) : Except (Fault ArgentError) Lexer := do
  let count := spanLength isIdentByte lexer.rest
  let ident := String.ofList (← sliceAt lexer.source lexer.pos (lexer.pos + count))
  if ident = LEGACY_COVENANT_ID then
    lexer.errorAt lexer.pos s!"`{LEGACY_COVENANT_ID}` was renamed to `{COVENANT_ID}`"
  else
    match [RESERVED_GENERATED_PREFIX, RESERVED_GENERATED_TYPE_PREFIX].find? fun generated =>
        generated.toList.isPrefixOf ident.toList with
    | some generated =>
      lexer.errorAt lexer.pos
        s!"identifier `{ident}` uses reserved generated namespace `{generated}`"
    | none => return lexer.pushNext (.ident ident) count

def unexpectedCharacter (lexer : Lexer) : Except (Fault ArgentError) Lexer := do
  let after ← sliceAt lexer.source lexer.pos lexer.bytes.length
  let unexpected ← expect after.head? "lexer position is within source"
  lexer.errorAt lexer.pos s!"unexpected character `{unexpected}`"

/-- one iteration of the loop, at the byte `b` -/
def step (lexer : Lexer) (b : UInt8) : Except (Fault ArgentError) Lexer :=
  if isSpace b then .ok (lexer.advance 1)
  else if b = ascii '/' ∧ lexer.peekByte 1 = some (ascii '/') then .ok lexer.skipLineComment
  else if b = ascii '/' ∧ lexer.peekByte 1 = some (ascii '*') then lexer.skipBlockComment
  else if b = ascii '"' then lexer.lexString jsonString
  else if isDigit b then lexer.lexNumber
  else if isIdentStart b then lexer.lexIdent
  else if b = ascii '-' ∧ lexer.peekByte 1 = some (ascii '>') then .ok (lexer.pushNext .arrow 2)
  else if isSymbol b then .ok (lexer.pushNext (.symbol (Char.ofNat b.toNat)) 1)
  else lexer.unexpectedCharacter

/-- the loop, for at most `fuel` iterations; without a value it has not ended -/
def run : Nat → Lexer → Option (Except (Fault ArgentError) Lexer)
  | 0, _ => none
  | fuel + 1, lexer =>
    match lexer.bytes[lexer.pos]? with
    | none => some (.ok (lexer.push .eof lexer.pos lexer.pos))
    | some b =>
      match lexer.step jsonString b with
      | .error e => some (.error e)
      | .ok next => run fuel next

end Lexer

/-- each iteration reads a byte, so that there is one iteration more than bytes -/
def lexArgentSource (jsonString : List Char → Except String String) (source : List Char) :
    Option (Except (Fault ArgentError) (List Token)) :=
  (Lexer.run jsonString ((utf8 source).length + 1) ⟨source, 0, []⟩).map fun result =>
    result.map Lexer.tokens

end Argent.Syntax
