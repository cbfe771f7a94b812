import Argent.Syntax.Numbers

/-!
# Expressions

`compiler/syntax/parser/expr.rs` and the types of `parser/types.rs`: the parser of expressions, up to
spans.  A token stream is the list of the tokens from the current one on.

* `Expr`                     the trees;
* `parseSilType`             types, as casts name them;
* `memberExpr`, `methodExpr`      what follows a dot;
* `parseExpressionBp`        operators by their binding powers, with prefixes and postfixes;
* `parseExpression`          expressions from the current token on.
-/

set_option linter.unusedSectionVars false

namespace Argent.Syntax.Expression
open Argent.Fallible Argent.Syntax

/-! ## trees -/

inductive TypeBase where
  | int
  | temporal
  | bool
  | string
  | pubkey
  | sig
  | datasig
  | byte
  | custom (name : String)
deriving DecidableEq, Repr

inductive ArrayDim where
  | dynamic
  | inferred
  | fixed (len : Nat)
  | constant (name : String)
deriving DecidableEq, Repr

structure SilTypeRef where
  base : TypeBase
  arrayDims : List ArrayDim
deriving DecidableEq, Repr

inductive UnaryOp where
  | not
  | neg
deriving DecidableEq, Repr

inductive BinaryOp where
  | or
  | and
  | bitOr
  | bitXor
  | bitAnd
  | eq
  | ne
  | le
  | ge
  | lt
  | gt
  | add
  | sub
  | mul
  | div
  | mod
deriving DecidableEq, Repr

inductive SplitPart where
  | left
  | right
deriving DecidableEq, Repr

inductive IntrospectionKind where
  | txInputsLength
  | txOutputsLength
  | txVersion
  | activeInputIndex
  | activeScriptPubKey
  | thisBytecodeSize
  | thisBytecodeSizeDataPrefix
deriving DecidableEq, Repr

inductive IndexedIntrospectionKind where
  | inputValue
  | inputScriptPubKey
  | inputSigScript
  | inputOutpointTxId
  | inputOutpointIndex
  | outputValue
  | outputScriptPubKey
deriving DecidableEq, Repr

inductive Expr where
  | int (value : Int)
  | temporal (value : Int)
  | dateLiteral (millis : Int)
  | bool (value : Bool)
  | byte (value : Nat)
  | string (value : String)
  | identifier (name : String)
  | unary (op : UnaryOp) (expr : Expr)
  | binary (op : BinaryOp) (left right : Expr)
  | call (name : String) (args : List Expr)
  | new (name : String) (args : List Expr)
  | array (ty : SilTypeRef) (values : List Expr)
  | structLiteral (name : String) (fields : List (String × Expr))
  | arrayIndex (source index : Expr)
  | append (source : Expr) (args : List Expr)
  | split (source index : Expr) (part : SplitPart)
  | slice (source start stop : Expr)
  | length (source : Expr)
  | introspection (kind : IntrospectionKind)
  | indexedIntrospection (kind : IndexedIntrospectionKind) (index : Expr)
  | fieldAccess (source : Expr) (field : String)
deriving Repr

/-- the functions of other crates -/
structure ExprCrates where
  /-- the name of a type in SIL -/
  typeName : SilTypeRef → String
  fixedByteSequenceLen : TypeBase → Option Nat
  /-- the milliseconds of a date literal -/
  parseDate : String → Option Int

/-! ## tokens -/

abbrev Tokens := List TokenKind

/-- an error of the source, or a recursion that was cut off -/
inductive ParseError where
  | error (message : String)
  | cutOff
deriving DecidableEq, Repr

def current : Tokens → TokenKind
  | [] => .eof
  | token :: _ => token

def advance : Tokens → Tokens
  | [] => []
  | .eof :: tokens => .eof :: tokens
  | _ :: tokens => tokens

def describe : TokenKind → String
  | .ident value => s!"identifier `{value}`"
  | .number value => s!"number `{value}`"
  | .str value => s!"string \"{value}\""
  | .arrow => "`->`"
  | .symbol value => s!"`{value}`"
  | .eof => "end of file"

def fail {α : Type} (message : String) : Except ParseError α := .error (.error message)

def expectSymbol (expected : Char) (tokens : Tokens) : Except ParseError Tokens :=
  if current tokens = .symbol expected then .ok (advance tokens)
  else fail s!"expected `{expected}`, found {describe (current tokens)}"

def expectAnyIdent (tokens : Tokens) : Except ParseError (String × Tokens) :=
  match current tokens with
  | .ident name => .ok (name, advance tokens)
  | token => fail s!"expected identifier, found {describe token}"

def expectString (tokens : Tokens) : Except ParseError (String × Tokens) :=
  match current tokens with
  | .str value => .ok (value, advance tokens)
  | token => fail s!"expected string, found {describe token}"

/-- the segments of a qualified name after the first -/
def qualifiedTail (name : String) : Tokens → Except ParseError (String × Tokens)
  | .symbol ':' :: .symbol ':' :: .ident segment :: tokens =>
    qualifiedTail (name ++ "::" ++ segment) tokens
  | .symbol ':' :: .symbol ':' :: tokens =>
    fail s!"expected identifier, found {describe (current tokens)}"
  | .symbol ':' :: tokens => fail s!"expected `:`, found {describe (current tokens)}"
  | tokens => .ok (name, tokens)

def expectAnyQualifiedIdent (tokens : Tokens) : Except ParseError (String × Tokens) := do
  let (name, tokens) ← expectAnyIdent tokens
  qualifiedTail name tokens

/-! ## types -/

def typeBase (name : String) : TypeBase :=
  if name = "int" then .int
  else if name = "temporal" then .temporal
  else if name = "bool" then .bool
  else if name = "string" then .string
  else if name = "pubkey" then .pubkey
  else if name = "sig" then .sig
  else if name = "datasig" then .datasig
  else if name = "byte" then .byte
  else .custom name

/-- `raw.parse::<usize>()` -/
def parseUsize (raw : String) : Option Nat :=
  (fromStrRadix 0 (2 ^ 64 - 1) 10 raw.toList).map Int.toNat

/-- the length between two brackets -/
def parseDim (tokens : Tokens) : Except ParseError (ArrayDim × Tokens) :=
  match current tokens with
  | .symbol ']' => .ok (.dynamic, tokens)
  | .ident name =>
    if name = "_" then .ok (.inferred, advance tokens)
    else do
      let (name, tokens) ← expectAnyQualifiedIdent tokens
      return (.constant name, tokens)
  | .number raw =>
    match parseUsize raw with
    | some len => .ok (.fixed len, advance tokens)
    | none => fail "invalid array length"
  | _ => fail "invalid array length"

/-- the dimensions of a type; a dimension takes more than one token -/
def parseDims : Nat → Tokens → Except ParseError (List ArrayDim × Tokens)
  | 0, _ => .error .cutOff
  | fuel + 1, tokens =>
    if current tokens = .symbol '[' then do
      let (dim, tokens) ← parseDim (advance tokens)
      let tokens ← expectSymbol ']' tokens
      let (dims, tokens) ← parseDims fuel tokens
      return (dim :: dims, tokens)
    else .ok ([], tokens)

/-- the state of an actor type, which trees do not keep -/
def skipActorState (name : String) (tokens : Tokens) : Except ParseError Tokens :=
  if name = "actor_type" ∧ current tokens = .symbol '<' then do
    let (_, tokens) ← expectAnyQualifiedIdent (advance tokens)
    expectSymbol '>' tokens
  else .ok tokens

def parseSilTypeTail (name : String) (tokens : Tokens) :
    Except ParseError (SilTypeRef × Tokens) := do
  let tokens ← skipActorState name tokens
  let (dims, tokens) ← parseDims (tokens.length + 1) tokens
  return (⟨typeBase name, dims⟩, tokens)

def parseSilType (tokens : Tokens) : Except ParseError (SilTypeRef × Tokens) := do
  let (name, tokens) ← expectAnyQualifiedIdent tokens
  parseSilTypeTail name tokens

/-! ## array literals of bytes -/

/-- the tokens before the end of the expression, where one is set as a number of tokens after it -/
def visible (limit : Option Nat) (tokens : Tokens) : Tokens :=
  match limit with
  | none => tokens
  | some rest => tokens.take (tokens.length - rest)

/-- whether the expression ends here -/
def atLimit (limit : Option Nat) (tokens : Tokens) : Bool :=
  match limit with
  | none => false
  | some rest => decide (tokens.length = rest)

def pastLimit (limit : Option Nat) (tokens : Tokens) : Bool :=
  match limit with
  | none => false
  | some rest => decide (tokens.length ≤ rest)

/-- Whether a brace or a parenthesis stands behind the brackets.  A bracket is skipped up to the
first one that closes. -/
def scanSuffix : Bool → Tokens → Bool
  | false, .symbol '[' :: tokens => scanSuffix true tokens
  | false, .symbol symbol :: _ => decide (symbol = '{' ∨ symbol = '(')
  | false, _ => false
  | true, .symbol ']' :: tokens => scanSuffix false tokens
  | true, .eof :: _ => false
  | true, _ :: tokens => scanSuffix true tokens
  | true, [] => false

def typeSuffixHasLiteral (limit : Option Nat) (tokens : Tokens) : Bool :=
  scanSuffix false (visible limit tokens)

/-- the number of parentheses that open, and what follows them -/
def leadingParens : Tokens → Nat × Tokens
  | .symbol '(' :: tokens => ((leadingParens tokens).1 + 1, (leadingParens tokens).2)
  | tokens => (0, tokens)

/-- what follows as many parentheses that close -/
def closeParens : Nat → Tokens → Option Tokens
  | 0, tokens => some tokens
  | count + 1, .symbol ')' :: tokens => closeParens count tokens
  | _ + 1, _ => none

/-- the digits of a hexadecimal number between parentheses, and the tokens behind these -/
def hexArgument (tokens : Tokens) : Option (String × List Char × Tokens) :=
  match leadingParens tokens with
  | (opens + 1, .number raw :: rest) => do
    let digits ← stripHex raw.toList
    let closing ← closeParens opens rest
    let closing := if current closing = .symbol ',' then advance closing else closing
    if current closing = .symbol ')' then some (raw, digits, advance closing) else none
  | _ => none

/-- the digits two by two -/
def hexPairs : List Char → List (List Char)
  | first :: second :: digits => [first, second] :: hexPairs digits
  | _ => []

def hexBytes (raw : String) (digits : List Char) : Except ParseError (List Expr) :=
  (hexPairs (if digits.length % 2 = 0 then digits else '0' :: digits)).mapM fun pair =>
    match fromStrRadix 0 255 16 pair with
    | some value => .ok (.byte value.toNat)
    | none => fail s!"invalid hex literal `{raw}`"

section
variable (crates : ExprCrates)

/-- a hexadecimal number that is cast to bytes -/
def parseHexCast (ty : SilTypeRef) (tokens : Tokens) :
    Except ParseError (Option (Expr × Tokens)) :=
  match hexArgument tokens with
  | none => .ok none
  | some (raw, digits, rest) =>
    if ty.base = .byte ∧ ty.arrayDims.length = 1 then do
      let values ← hexBytes raw digits
      match ty.arrayDims.head? with
      | some (.fixed expected) =>
        if expected ≠ values.length then
          fail s!"array literal size mismatch: expected {expected}, got {values.length}"
        else return some (.array ty values, rest)
      | some .inferred => return some (.array ⟨ty.base, [.fixed values.length]⟩ values, rest)
      | some .dynamic | some (.constant _) | none => return some (.array ty values, rest)
    else
      match crates.fixedByteSequenceLen ty.base with
      | none => .ok none
      | some expected => do
        let values ← hexBytes raw digits
        if values.length ≠ expected then
          fail (s!"{crates.typeName ty} hex literal size mismatch: expected {expected} bytes, " ++
            s!"got {values.length}")
        else return some (.call (crates.typeName ty) [.array ⟨.byte, [.fixed expected]⟩ values], rest)

/-! ## members -/

/-- `tx.inputs` and `tx.outputs` -/
def isTxCollection (collection : String) : Expr → Bool
  | .fieldAccess (.identifier root) field => decide (root = "tx" ∧ field = collection)
  | _ => false

/-- a part of a split, which is written as a field -/
def splitPart (source : Expr) (field : String) : Option (Except ParseError Expr) :=
  match source with
  | .split source index _ =>
    if field = "0" then some (.ok (.split source index .left))
    else if field = "1" then some (.ok (.split source index .right))
    else if field.toList.all Char.isDigit then some (fail "split() index must be 0 or 1")
    else none
  | _ => none

def lengthExpr (source : Expr) : Expr :=
  if isTxCollection "inputs" source then .introspection .txInputsLength
  else if isTxCollection "outputs" source then .introspection .txOutputsLength
  else .length source

def inputField (field : String) : Option IndexedIntrospectionKind :=
  if field = "value" then some .inputValue
  else if field = "scriptPubKey" then some .inputScriptPubKey
  else if field = "sigScript" then some .inputSigScript
  else if field = "outpointTxId" then some .inputOutpointTxId
  else if field = "outpointIndex" then some .inputOutpointIndex
  else none

def outputField (field : String) : Option IndexedIntrospectionKind :=
  if field = "value" then some .outputValue
  else if field = "scriptPubKey" then some .outputScriptPubKey
  else none

/-- the introspection that a field of a name stands for -/
def rootField (root field : String) : Option IntrospectionKind :=
  if root = "this" ∧ field = "activeInputIndex" then some .activeInputIndex
  else if root = "this" ∧ field = "activeScriptPubKey" then some .activeScriptPubKey
  else if root = "this" ∧ field = "bytecodeSize" then some .thisBytecodeSize
  else if root = "this" ∧ field = "bytecodeSizeDataPrefix" then some .thisBytecodeSizeDataPrefix
  else if root = "tx" ∧ field = "version" then some .txVersion
  else none

def memberExpr (source : Expr) (field : String) : Except ParseError Expr :=
  match source with
  | .identifier root =>
    match rootField root field with
    | some kind => .ok (.introspection kind)
    | none => .ok (.fieldAccess source field)
  | .arrayIndex collection index =>
    if isTxCollection "inputs" collection then
      match inputField field with
      | some kind => .ok (.indexedIntrospection kind index)
      | none => fail "unknown input introspection field"
    else if isTxCollection "outputs" collection then
      match outputField field with
      | some kind => .ok (.indexedIntrospection kind index)
      | none => fail "unknown output introspection field"
    else .ok (.fieldAccess source field)
  | _ => .ok (.fieldAccess source field)

/-- the segments of a name with dots -/
def dottedName : Expr → Option (List String)
  | .identifier name => some [name]
  | .fieldAccess source field => (dottedName source).map fun segments => segments ++ [field]
  | _ => none

def verifiers : List String :=
  ["g16.verify", "r0.g16.verify", "r0.succinct.verify", "r0.succinct.blake2b.verify",
    "r0.succinct.poseidon2.verify", "r0.succinct.sha256.verify"]

/-- the name of a verifier that is called as a method -/
def verifierName (source : Expr) (field : String) : Option String :=
  if field = "verify" then
    ((dottedName source).map fun segments => ".".intercalate (segments ++ [field])).filter
      fun name => decide (name ∈ verifiers)
  else none

def methodExpr (source : Expr) (field : String) (args : List Expr) : Except ParseError Expr :=
  match verifierName source field with
  | some name => .ok (.call name args)
  | none =>
    match field, args with
    | "append", first :: rest => .ok (.append source (first :: rest))
    | "split", [index] => .ok (.split source index .left)
    | "slice", [start, stop] => .ok (.slice source start stop)
    | "co_spent", [] => .ok (.call field [source])
    | _, _ => fail s!"unsupported method call `{field}`"

/-! ## operators -/

/-- the operator at the current token, its binding power and its number of tokens -/
def binaryOperator (tokens : Tokens) : Option (BinaryOp × Nat × Nat) :=
  match current tokens, current (tokens.drop 1) with
  | .symbol '|', .symbol '|' => some (.or, 1, 2)
  | .symbol '&', .symbol '&' => some (.and, 2, 2)
  | .symbol '|', _ => some (.bitOr, 3, 1)
  | .symbol '^', _ => some (.bitXor, 4, 1)
  | .symbol '&', _ => some (.bitAnd, 5, 1)
  | .symbol '=', .symbol '=' => some (.eq, 6, 2)
  | .symbol '!', .symbol '=' => some (.ne, 6, 2)
  | .symbol '<', .symbol '=' => some (.le, 7, 2)
  | .symbol '>', .symbol '=' => some (.ge, 7, 2)
  | .symbol '<', _ => some (.lt, 7, 1)
  | .symbol '>', _ => some (.gt, 7, 1)
  | .symbol '+', _ => some (.add, 8, 1)
  | .symbol '-', _ => some (.sub, 8, 1)
  | .symbol '*', _ => some (.mul, 9, 1)
  | .symbol '/', _ => some (.div, 9, 1)
  | .symbol '%', _ => some (.mod, 9, 1)
  | _, _ => none

def checkExpressionPostfix (tokens : Tokens) : Bool :=
  decide (current tokens = .symbol '.' ∨ current tokens = .symbol '[' ∨ current tokens = .ident "as")

/-! ## expressions -/

/-- a number with the unit behind it -/
def parseNumberExpression (raw : String) (tokens : Tokens) : Except ParseError (Expr × Tokens) :=
  match numberBeforeUnit raw with
  | .error message => fail message
  | .ok value =>
    match unitAfter (current tokens) with
    | some (scale, temporal) =>
      match checkedMulI64 value scale with
      | some scaled => .ok (if temporal then .temporal scaled else .int scaled, advance tokens)
      | none => fail "number unit overflow"
    | none => .ok (.int value, tokens)

variable (limit : Option Nat)

mutual

/-- an expression whose operators bind at least as tightly as `minBp` -/
def parseExpressionBp : Nat → Nat → Tokens → Except ParseError (Expr × Tokens)
  | 0, _, _ => .error .cutOff
  | fuel + 1, minBp, tokens => do
    let (left, tokens) ← parsePrefix fuel tokens
    parseOperators fuel minBp left tokens

/-- the loop over the postfixes and the operators behind `left` -/
def parseOperators : Nat → Nat → Expr → Tokens → Except ParseError (Expr × Tokens)
  | 0, _, _, _ => .error .cutOff
  | fuel + 1, minBp, left, tokens =>
    if pastLimit limit tokens then .ok (left, tokens)
    else if minBp ≤ 10 ∧ checkExpressionPostfix tokens then do
      let (left, tokens) ← parsePostfix fuel left tokens
      parseOperators fuel minBp left tokens
    else
      match binaryOperator tokens with
      | none => .ok (left, tokens)
      | some (op, leftBp, width) =>
        if leftBp < minBp then .ok (left, tokens)
        else do
          let (right, tokens) ← parseExpressionBp fuel (leftBp + 1) (tokens.drop width)
          parseOperators fuel minBp (.binary op left right) tokens

def parsePrefix : Nat → Tokens → Except ParseError (Expr × Tokens)
  | 0, _ => .error .cutOff
  | fuel + 1, tokens =>
    match current tokens with
    | .symbol '!' => do
      let (expr, tokens) ← parseExpressionBp fuel 10 (advance tokens)
      return (.unary .not expr, tokens)
    | .symbol '-' => do
      let (expr, tokens) ← parseExpressionBp fuel 10 (advance tokens)
      return (.unary .neg expr, tokens)
    | .symbol '(' => do
      let (expr, tokens) ← parseExpressionBp fuel 0 (advance tokens)
      let tokens ← expectSymbol ')' tokens
      return (expr, tokens)
    | .symbol '{' => parseBracedLiteral fuel "" tokens
    | .number raw => parseNumberExpression raw (advance tokens)
    | .str value => .ok (.string value, advance tokens)
    | .ident name =>
      if name = "true" ∨ name = "false" then .ok (.bool (decide (name = "true")), advance tokens)
      else if name = "new" then do
        let (name, tokens) ← expectAnyQualifiedIdent (advance tokens)
        let (args, tokens) ← parseExpressionArgs fuel tokens
        return (.new name args, tokens)
      else if name = "date" ∧ current (advance tokens) = .symbol '(' then do
        let tokens ← expectSymbol '(' (advance tokens)
        let (raw, tokens) ← expectString tokens
        let tokens ← expectSymbol ')' tokens
        match crates.parseDate raw with
        | some millis => return (.dateLiteral millis, tokens)
        | none => fail s!"invalid date literal `{raw}`"
      else parseNameExpression fuel tokens
    | token => fail s!"expected expression, found {describe token}"

def parseNameExpression : Nat → Tokens → Except ParseError (Expr × Tokens)
  | 0, _ => .error .cutOff
  | fuel + 1, tokens => do
    let (name, tokens) ← expectAnyQualifiedIdent tokens
    if current tokens = .symbol '[' ∧ typeSuffixHasLiteral limit tokens then do
      let (ty, tokens) ← parseSilTypeTail name tokens
      if current tokens = .symbol '{' then parseTypedArray fuel ty tokens
      else
        match ← parseHexCast crates ty tokens with
        | some hex => return hex
        | none => do
          let (args, tokens) ← parseExpressionArgs fuel tokens
          return (.call (crates.typeName ty) args, tokens)
    else if current tokens = .symbol '(' ∧ ¬ atLimit limit tokens then do
      let (ty, tokens) ← parseSilTypeTail name tokens
      match ← parseHexCast crates ty tokens with
      | some hex => return hex
      | none => do
        let (args, tokens) ← parseExpressionArgs fuel tokens
        return (.call name args, tokens)
    else if current tokens = .symbol '{' ∧ ¬ atLimit limit tokens then
      parseBracedLiteral fuel name tokens
    else return (.identifier name, tokens)

def parseTypedArray : Nat → SilTypeRef → Tokens → Except ParseError (Expr × Tokens)
  | 0, _, _ => .error .cutOff
  | fuel + 1, ty, tokens => do
    let tokens ← expectSymbol '{' tokens
    let (values, tokens) ← parseItems fuel '}' tokens
    let tokens ← expectSymbol '}' tokens
    match ty.arrayDims.getLast? with
    | some (.fixed expected) =>
      if expected ≠ values.length then
        fail s!"array literal size mismatch: expected {expected}, got {values.length}"
      else return (.array ty values, tokens)
    | some .inferred =>
      return (.array ⟨ty.base, ty.arrayDims.dropLast ++ [.fixed values.length]⟩ values, tokens)
    | some .dynamic | some (.constant _) => return (.array ty values, tokens)
    | none => fail "array literal type must have a dimension"

def parseBracedLiteral : Nat → String → Tokens → Except ParseError (Expr × Tokens)
  | 0, _, _ => .error .cutOff
  | fuel + 1, name, tokens => do
    let tokens ← expectSymbol '{' tokens
    let (fields, tokens) ← parseFields fuel tokens
    let tokens ← expectSymbol '}' tokens
    return (.structLiteral name fields, tokens)

/-- the fields of a struct literal, with names or by position -/
def parseFields : Nat → Tokens → Except ParseError (List (String × Expr) × Tokens)
  | 0, _ => .error .cutOff
  | fuel + 1, tokens =>
    if current tokens = .symbol '}' then .ok ([], tokens)
    else do
      let (field, tokens) ← parseField fuel tokens
      if current tokens = .symbol ',' then do
        let (fields, tokens) ← parseFields fuel (advance tokens)
        return (field :: fields, tokens)
      else return ([field], tokens)

def parseField : Nat → Tokens → Except ParseError ((String × Expr) × Tokens)
  | 0, _ => .error .cutOff
  | fuel + 1, tokens =>
    match tokens with
    | .ident name :: .symbol ':' :: tokens => do
      let (expr, tokens) ← parseExpressionBp fuel 0 tokens
      return ((name, expr), tokens)
    | _ => do
      let (expr, tokens) ← parseExpressionBp fuel 0 tokens
      return (("", expr), tokens)

/-- expressions between commas, up to a closing symbol -/
def parseItems : Nat → Char → Tokens → Except ParseError (List Expr × Tokens)
  | 0, _, _ => .error .cutOff
  | fuel + 1, stop, tokens =>
    if current tokens = .symbol stop then .ok ([], tokens)
    else do
      let (item, tokens) ← parseExpressionBp fuel 0 tokens
      if current tokens = .symbol ',' then do
        let (items, tokens) ← parseItems fuel stop (advance tokens)
        return (item :: items, tokens)
      else return ([item], tokens)

def parseExpressionArgs : Nat → Tokens → Except ParseError (List Expr × Tokens)
  | 0, _ => .error .cutOff
  | fuel + 1, tokens => do
    let tokens ← expectSymbol '(' tokens
    let (args, tokens) ← parseItems fuel ')' tokens
    let tokens ← expectSymbol ')' tokens
    return (args, tokens)

def parsePostfix : Nat → Expr → Tokens → Except ParseError (Expr × Tokens)
  | 0, _, _ => .error .cutOff
  | fuel + 1, source, tokens =>
    if current tokens = .symbol '[' then do
      let (index, tokens) ← parseExpressionBp fuel 0 (advance tokens)
      let tokens ← expectSymbol ']' tokens
      return (.arrayIndex source index, tokens)
    else if current tokens = .ident "as" then do
      let (ty, tokens) ← parseSilType (advance tokens)
      return (.call ("__as_cast_" ++ crates.typeName ty) [source], tokens)
    else do
      let tokens ← expectSymbol '.' tokens
      match current tokens with
      | .ident field | .number field => parseMember fuel source field (advance tokens)
      | _ => fail "expected field after `.`"

/-- the field or the method behind a dot -/
def parseMember : Nat → Expr → String → Tokens → Except ParseError (Expr × Tokens)
  | 0, _, _, _ => .error .cutOff
  | fuel + 1, source, field, tokens =>
    match splitPart source field with
    | some part => do
      let part ← part
      return (part, tokens)
    | none =>
      if field = "length" ∧ current tokens ≠ .symbol '(' then .ok (lengthExpr source, tokens)
      else if current tokens = .symbol '(' ∧ ¬ atLimit limit tokens then do
        let (args, tokens) ← parseExpressionArgs fuel tokens
        let expr ← methodExpr source field args
        return (expr, tokens)
      else do
        let expr ← memberExpr source field
        return (expr, tokens)

end

/-- `parse_expression`: every token can start five calls at most -/
def parseExpression (tokens : Tokens) : Except ParseError (Expr × Tokens) :=
  parseExpressionBp crates limit (5 * tokens.length + 3) 0 tokens

end

end Argent.Syntax.Expression
