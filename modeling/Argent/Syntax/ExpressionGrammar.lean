import Argent.Base.Brackets
import Argent.Syntax.Expressions

/-!
# The grammar of expressions

What the tokens of an expression are, without a word on how they are read.  A phrase that derives at a
level may stand where the operators on both sides bind no tighter than that level: binary operators
derive up to their own binding power, prefixes up to ten, casts up to eleven (a bracket behind one would
belong to the type) and everything that is closed up to twelve.

* `Path`, `DimsText`, `TypeText`      names and types;
* `Derives`                  expressions, their lists, and the fields of struct literals;
* `Derives.mono`             a phrase derives at every smaller level;
* `Derives.starts`           the tokens with which expressions start;
* `Derives.wellNested`       the brackets of a phrase close.
-/

set_option linter.unusedSectionVars false

namespace Argent.Syntax.Expression

/-! ## names and types -/

/-- the tokens of a qualified name behind its first segment -/
def pathTail (segments : List String) : Tokens :=
  segments.flatMap fun segment => [.symbol ':', .symbol ':', .ident segment]

def pathName (first : String) (segments : List String) : String :=
  segments.foldl (fun name segment => name ++ "::" ++ segment) first

/-- the qualified name `name`, whose first segment is `first` -/
inductive Path : String → String → Tokens → Prop
  | mk (first : String) (segments : List String) :
    Path first (pathName first segments) (.ident first :: pathTail segments)

/-- what stands between two brackets of a type -/
inductive DimText : ArrayDim → Tokens → Prop
  | dynamic : DimText .dynamic []
  | inferred : DimText .inferred [.ident "_"]
  | fixed {raw : String} {len : Nat} : parseUsize raw = some len → DimText (.fixed len) [.number raw]
  | constant {first name : String} {ts : Tokens} : Path first name ts → first ≠ "_" →
    DimText (.constant name) ts

inductive DimsText : List ArrayDim → Tokens → Prop
  | nil : DimsText [] []
  | cons {dim : ArrayDim} {dims : List ArrayDim} {t ts : Tokens} : DimText dim t →
    DimsText dims ts → DimsText (dim :: dims) (.symbol '[' :: t ++ .symbol ']' :: ts)

inductive TypeText : SilTypeRef → Tokens → Prop
  | plain {first name : String} {dims : List ArrayDim} {t ts : Tokens} : Path first name t →
    DimsText dims ts → TypeText ⟨typeBase name, dims⟩ (t ++ ts)
  | handle {head first state : String} {dims : List ArrayDim} {h t ts : Tokens} :
    Path head "actor_type" h → Path first state t → DimsText dims ts →
      TypeText ⟨typeBase "actor_type", dims⟩ (h ++ .symbol '<' :: t ++ .symbol '>' :: ts)

/-- a number in `k` pairs of parentheses -/
def hexText (k : Nat) (raw : String) : Tokens :=
  List.replicate k (.symbol '(') ++ .number raw :: List.replicate k (.symbol ')')

/-- an argument list that holds one hexadecimal number -/
inductive HexArgument : Tokens → String → List Char → Prop
  | mk {k : Nat} {raw : String} {digits : List Char} {comma : Tokens} :
    stripHex raw.toList = some digits → comma = [] ∨ comma = [.symbol ','] →
      HexArgument (.symbol '(' :: hexText k raw ++ comma ++ [.symbol ')']) raw digits

/-! ## operators -/

def bindingPower : BinaryOp → Nat
  | .or => 1
  | .and => 2
  | .bitOr => 3
  | .bitXor => 4
  | .bitAnd => 5
  | .eq | .ne => 6
  | .le | .ge | .lt | .gt => 7
  | .add | .sub => 8
  | .mul | .div | .mod => 9

def operatorText : BinaryOp → Tokens
  | .or => [.symbol '|', .symbol '|']
  | .and => [.symbol '&', .symbol '&']
  | .bitOr => [.symbol '|']
  | .bitXor => [.symbol '^']
  | .bitAnd => [.symbol '&']
  | .eq => [.symbol '=', .symbol '=']
  | .ne => [.symbol '!', .symbol '=']
  | .le => [.symbol '<', .symbol '=']
  | .ge => [.symbol '>', .symbol '=']
  | .lt => [.symbol '<']
  | .gt => [.symbol '>']
  | .add => [.symbol '+']
  | .sub => [.symbol '-']
  | .mul => [.symbol '*']
  | .div => [.symbol '/']
  | .mod => [.symbol '%']

def unaryText : UnaryOp → TokenKind
  | .not => .symbol '!'
  | .neg => .symbol '-'

/-! ## expressions -/

inductive Phrase where
  | expr (level : Nat) (expr : Expr)
  /-- expressions between commas, the last of which may be followed by one -/
  | items (exprs : List Expr)
  | fields (fields : List (String × Expr))

/-- the words that are no names -/
def reserved : List String := ["true", "false", "new"]

/-- the array of `ty` that holds `values`, if these are as many as it says -/
def arrayOf (ty : SilTypeRef) (values : List Expr) : Option Expr :=
  match ty.arrayDims.getLast? with
  | some (.fixed expected) => if expected = values.length then some (.array ty values) else none
  | some .inferred =>
    some (.array ⟨ty.base, ty.arrayDims.dropLast ++ [.fixed values.length]⟩ values)
  | some .dynamic | some (.constant _) => some (.array ty values)
  | none => none

section
variable (crates : ExprCrates)

/-- whether a hexadecimal number is read as the bytes of `ty` -/
def TakesHex (ty : SilTypeRef) : Prop :=
  (ty.base = .byte ∧ ty.arrayDims.length = 1) ∨ ∃ len, crates.fixedByteSequenceLen ty.base = some len

/-- the tokens of a phrase -/
inductive Derives : Phrase → Tokens → Prop
  | binary {level : Nat} {op : BinaryOp} {left right : Expr} {ts us : Tokens} :
    level ≤ bindingPower op → Derives (.expr (bindingPower op) left) ts →
      Derives (.expr (bindingPower op + 1) right) us →
        Derives (.expr level (.binary op left right)) (ts ++ operatorText op ++ us)
  | unary {level : Nat} {op : UnaryOp} {expr : Expr} {ts : Tokens} : level ≤ 10 →
    Derives (.expr 10 expr) ts → Derives (.expr level (.unary op expr)) (unaryText op :: ts)
  | paren {level : Nat} {expr : Expr} {ts : Tokens} : level ≤ 12 → Derives (.expr 0 expr) ts →
    Derives (.expr level expr) (.symbol '(' :: ts ++ [.symbol ')'])
  | number {level : Nat} {raw : String} {value : Int} : level ≤ 12 →
    numberBeforeUnit raw = .ok value → Derives (.expr level (.int value)) [.number raw]
  | quantity {level : Nat} {raw unit : String} {value scale scaled : Int} {temporal : Bool} :
    level ≤ 12 → numberBeforeUnit raw = .ok value →
      unitAfter (.ident unit) = some (scale, temporal) → checkedMulI64 value scale = some scaled →
        Derives (.expr level (if temporal then .temporal scaled else .int scaled))
          [.number raw, .ident unit]
  | string {level : Nat} {value : String} : level ≤ 12 →
    Derives (.expr level (.string value)) [.str value]
  | bool {level : Nat} {name : String} : level ≤ 12 → name = "true" ∨ name = "false" →
    Derives (.expr level (.bool (decide (name = "true")))) [.ident name]
  | date {level : Nat} {raw : String} {millis : Int} : level ≤ 12 →
    crates.parseDate raw = some millis →
      Derives (.expr level (.dateLiteral millis))
        [.ident "date", .symbol '(', .str raw, .symbol ')']
  | new {level : Nat} {first name : String} {args : List Expr} {t ts : Tokens} : level ≤ 12 →
    Path first name t → Derives (.items args) ts →
      Derives (.expr level (.new name args))
        (.ident "new" :: t ++ .symbol '(' :: ts ++ [.symbol ')'])
  | identifier {level : Nat} {first name : String} {ts : Tokens} : level ≤ 12 → Path first name ts →
    first ∉ reserved → Derives (.expr level (.identifier name)) ts
  | call {level : Nat} {first name : String} {args : List Expr} {t ts : Tokens} : level ≤ 12 →
    Path first name t → first ∉ reserved → t ≠ [.ident "date"] → Derives (.items args) ts →
      (TakesHex crates ⟨typeBase name, []⟩ →
        ∀ raw digits, ¬ HexArgument (.symbol '(' :: ts ++ [.symbol ')']) raw digits) →
          Derives (.expr level (.call name args)) (t ++ .symbol '(' :: ts ++ [.symbol ')'])
  /-- a call of a type with dimensions -/
  | typeCall {level : Nat} {first name : String} {dim : ArrayDim} {dims : List ArrayDim}
    {args : List Expr} {t d ts : Tokens} : level ≤ 12 → Path first name t → first ∉ reserved →
      DimsText (dim :: dims) d → Derives (.items args) ts →
        (TakesHex crates ⟨typeBase name, dim :: dims⟩ →
          ∀ raw digits, ¬ HexArgument (.symbol '(' :: ts ++ [.symbol ')']) raw digits) →
            Derives (.expr level (.call (crates.typeName ⟨typeBase name, dim :: dims⟩) args))
              (t ++ d ++ .symbol '(' :: ts ++ [.symbol ')'])
  /-- a hexadecimal number that is cast to an array of bytes -/
  | hexArray {level : Nat} {first name raw : String} {dim : ArrayDim} {digits : List Char}
    {values : List Expr} {expr : Expr} {t d ts : Tokens} : level ≤ 12 → Path first name t →
      first ∉ reserved → DimsText [dim] d → typeBase name = .byte → HexArgument ts raw digits →
        hexBytes raw digits = .ok values → arrayOf ⟨.byte, [dim]⟩ values = some expr →
          Derives (.expr level expr) (t ++ d ++ ts)
  /-- a hexadecimal number that is cast to a type of fixed length -/
  | hexCall {level : Nat} {first name raw : String} {dims : List ArrayDim} {digits : List Char}
    {values : List Expr} {t d ts : Tokens} : level ≤ 12 → Path first name t → first ∉ reserved →
      t ++ d ≠ [.ident "date"] → DimsText dims d → ¬ (typeBase name = .byte ∧ dims.length = 1) →
        HexArgument ts raw digits → hexBytes raw digits = .ok values →
          crates.fixedByteSequenceLen (typeBase name) = some values.length →
            Derives (.expr level (.call (crates.typeName ⟨typeBase name, dims⟩)
              [.array ⟨.byte, [.fixed values.length]⟩ values])) (t ++ d ++ ts)
  /-- an array literal -/
  | typedArray {level : Nat} {first name : String} {dim : ArrayDim} {dims : List ArrayDim}
    {values : List Expr} {expr : Expr} {t d ts : Tokens} : level ≤ 12 → Path first name t →
      first ∉ reserved → DimsText (dim :: dims) d → Derives (.items values) ts →
        arrayOf ⟨typeBase name, dim :: dims⟩ values = some expr →
          Derives (.expr level expr) (t ++ d ++ .symbol '{' :: ts ++ [.symbol '}'])
  | braced {level : Nat} {fields : List (String × Expr)} {ts : Tokens} : level ≤ 12 →
    Derives (.fields fields) ts →
      Derives (.expr level (.structLiteral "" fields)) (.symbol '{' :: ts ++ [.symbol '}'])
  | structLiteral {level : Nat} {first name : String} {fields : List (String × Expr)}
    {t ts : Tokens} : level ≤ 12 → Path first name t → first ∉ reserved →
      Derives (.fields fields) ts →
        Derives (.expr level (.structLiteral name fields))
          (t ++ .symbol '{' :: ts ++ [.symbol '}'])
  | index {level : Nat} {source index : Expr} {ts us : Tokens} : level ≤ 12 →
    Derives (.expr 12 source) ts → Derives (.expr 0 index) us →
      Derives (.expr level (.arrayIndex source index))
        (ts ++ .symbol '[' :: us ++ [.symbol ']'])
  | cast {level : Nat} {source : Expr} {ty : SilTypeRef} {ts t : Tokens} : level ≤ 11 →
    Derives (.expr 11 source) ts → TypeText ty t →
      Derives (.expr level (.call ("__as_cast_" ++ crates.typeName ty) [source]))
        (ts ++ .ident "as" :: t)
  /-- a part of a split -/
  | part {level : Nat} {source expr : Expr} {field : String} {token : TokenKind} {ts : Tokens} :
    level ≤ 12 → Derives (.expr 11 source) ts → token = .ident field ∨ token = .number field →
      splitPart source field = some (.ok expr) →
        Derives (.expr level expr) (ts ++ [.symbol '.', token])
  | length {level : Nat} {source : Expr} {token : TokenKind} {ts : Tokens} : level ≤ 12 →
    Derives (.expr 11 source) ts → token = .ident "length" ∨ token = .number "length" →
      splitPart source "length" = none →
        Derives (.expr level (lengthExpr source)) (ts ++ [.symbol '.', token])
  | member {level : Nat} {source expr : Expr} {field : String} {token : TokenKind} {ts : Tokens} :
    level ≤ 12 → Derives (.expr 11 source) ts → token = .ident field ∨ token = .number field →
      splitPart source field = none → field ≠ "length" → memberExpr source field = .ok expr →
        Derives (.expr level expr) (ts ++ [.symbol '.', token])
  | method {level : Nat} {source expr : Expr} {field : String} {token : TokenKind}
    {args : List Expr} {ts us : Tokens} : level ≤ 12 → Derives (.expr 11 source) ts →
      token = .ident field ∨ token = .number field → splitPart source field = none →
        Derives (.items args) us → methodExpr source field args = .ok expr →
          Derives (.expr level expr)
            (ts ++ .symbol '.' :: token :: .symbol '(' :: us ++ [.symbol ')'])
  | noItems : Derives (.items []) []
  | item {expr : Expr} {ts : Tokens} : Derives (.expr 0 expr) ts → Derives (.items [expr]) ts
  | consItem {expr : Expr} {exprs : List Expr} {ts us : Tokens} : Derives (.expr 0 expr) ts →
    Derives (.items exprs) us → Derives (.items (expr :: exprs)) (ts ++ .symbol ',' :: us)
  | noFields : Derives (.fields []) []
  | named {name : String} {expr : Expr} {ts : Tokens} : Derives (.expr 0 expr) ts →
    Derives (.fields [(name, expr)]) (.ident name :: .symbol ':' :: ts)
  | consNamed {name : String} {expr : Expr} {fields : List (String × Expr)} {ts us : Tokens} :
    Derives (.expr 0 expr) ts → Derives (.fields fields) us →
      Derives (.fields ((name, expr) :: fields))
        (.ident name :: .symbol ':' :: ts ++ .symbol ',' :: us)
  /-- a field by position, which starts with no qualified name -/
  | positional {expr : Expr} {ts : Tokens} : Derives (.expr 0 expr) ts →
    (∀ name rest, ts ≠ .ident name :: .symbol ':' :: rest) → Derives (.fields [("", expr)]) ts
  | consPositional {expr : Expr} {fields : List (String × Expr)} {ts us : Tokens} :
    Derives (.expr 0 expr) ts → (∀ name rest, ts ≠ .ident name :: .symbol ':' :: rest) →
      Derives (.fields fields) us → Derives (.fields (("", expr) :: fields)) (ts ++ .symbol ',' :: us)

variable {crates} {level : Nat} {expr : Expr} {phrase : Phrase} {ts us : Tokens}

theorem Derives.mono {low : Nat} (h : Derives crates (.expr level expr) ts) (hle : low ≤ level) :
    Derives crates (.expr low expr) ts := by
  cases h with
  | binary hlevel hl hr => exact .binary (Nat.le_trans hle hlevel) hl hr
  | unary hlevel h => exact .unary (Nat.le_trans hle hlevel) h
  | paren hlevel h => exact .paren (Nat.le_trans hle hlevel) h
  | number hlevel h => exact .number (Nat.le_trans hle hlevel) h
  | quantity hlevel h hunit hscaled => exact .quantity (Nat.le_trans hle hlevel) h hunit hscaled
  | string hlevel => exact .string (Nat.le_trans hle hlevel)
  | bool hlevel h => exact .bool (Nat.le_trans hle hlevel) h
  | date hlevel h => exact .date (Nat.le_trans hle hlevel) h
  | new hlevel hpath h => exact .new (Nat.le_trans hle hlevel) hpath h
  | identifier hlevel hpath hfirst => exact .identifier (Nat.le_trans hle hlevel) hpath hfirst
  | call hlevel hpath hfirst hdate h hhex => exact .call (Nat.le_trans hle hlevel) hpath hfirst hdate h hhex
  | typeCall hlevel hpath hfirst hdims h hhex =>
    exact .typeCall (Nat.le_trans hle hlevel) hpath hfirst hdims h hhex
  | hexArray hlevel hpath hfirst hdims hbase harg hvalues h =>
    exact .hexArray (Nat.le_trans hle hlevel) hpath hfirst hdims hbase harg hvalues h
  | hexCall hlevel hpath hfirst hdate hdims hbase harg hvalues h =>
    exact .hexCall (Nat.le_trans hle hlevel) hpath hfirst hdate hdims hbase harg hvalues h
  | typedArray hlevel hpath hfirst hdims h hvalues =>
    exact .typedArray (Nat.le_trans hle hlevel) hpath hfirst hdims h hvalues
  | braced hlevel h => exact .braced (Nat.le_trans hle hlevel) h
  | structLiteral hlevel hpath hfirst h => exact .structLiteral (Nat.le_trans hle hlevel) hpath hfirst h
  | index hlevel h hi => exact .index (Nat.le_trans hle hlevel) h hi
  | cast hlevel h hty => exact .cast (Nat.le_trans hle hlevel) h hty
  | part hlevel h htoken hpart => exact .part (Nat.le_trans hle hlevel) h htoken hpart
  | length hlevel h htoken hpart => exact .length (Nat.le_trans hle hlevel) h htoken hpart
  | member hlevel h htoken hpart hlength hmember =>
    exact .member (Nat.le_trans hle hlevel) h htoken hpart hlength hmember
  | method hlevel h htoken hpart hargs hmethod =>
    exact .method (Nat.le_trans hle hlevel) h htoken hpart hargs hmethod

/-! ## how phrases start -/

/-- the tokens with which expressions start -/
def Starter : TokenKind → Prop
  | .ident _ | .number _ | .str _ => True
  | .symbol symbol => symbol = '!' ∨ symbol = '-' ∨ symbol = '(' ∨ symbol = '{'
  | .arrow | .eof => False

theorem exists_cons_of_starter : ∀ {ts : Tokens}, Starter (current ts) →
    ∃ token rest, ts = token :: rest ∧ Starter token
  | [], h => h.elim
  | token :: rest, h => ⟨token, rest, rfl, h⟩

theorem current_append (h : Starter (current ts)) : current (ts ++ us) = current ts := by
  obtain ⟨token, rest, rfl, -⟩ := exists_cons_of_starter h
  rfl

theorem starter_append (h : Starter (current ts)) : Starter (current (ts ++ us)) := by
  rw [current_append h]
  exact h

theorem Path.starter {first name : String} (h : Path first name ts) : Starter (current ts) := by
  cases h
  trivial

/-- an expression starts with a name, a literal, a prefix operator or a bracket -/
theorem Derives.starts (h : Derives crates (.expr level expr) ts) : Starter (current ts) := by
  generalize hphrase : Phrase.expr level expr = phrase at h
  induction h generalizing level expr with
  | binary hlevel hl hr ihl ihr => exact starter_append (starter_append (ihl rfl))
  | @unary level op expr ts hlevel h ih => cases op <;> simp [current, unaryText, Starter]
  | paren | braced => simp [current, Starter]
  | number | quantity | string | bool | date | new => trivial
  | identifier hlevel hpath hfirst => exact hpath.starter
  | call hlevel hpath | structLiteral hlevel hpath =>
    exact starter_append (starter_append hpath.starter)
  | typeCall hlevel hpath | typedArray hlevel hpath =>
    exact starter_append (starter_append (starter_append hpath.starter))
  | hexArray hlevel hpath | hexCall hlevel hpath =>
    exact starter_append (starter_append hpath.starter)
  | index hlevel h hi ih | method hlevel h htoken hpart hargs hmethod ih =>
    exact starter_append (starter_append (ih rfl))
  | cast hlevel h hty ih | part hlevel h htoken hpart ih | length hlevel h htoken hpart ih
  | member hlevel h htoken hpart hlength hmember ih => exact starter_append (ih rfl)
  | noItems | item | consItem | noFields | named | consNamed | positional | consPositional =>
    cases hphrase

/-! ## how brackets close -/

/-- the pairs of brackets -/
def Brackets (opening closing : TokenKind) : Prop :=
  (opening = .symbol '(' ∧ closing = .symbol ')') ∨ (opening = .symbol '[' ∧ closing = .symbol ']') ∨
    (opening = .symbol '{' ∧ closing = .symbol '}')

/-- a token that is no bracket -/
def Plain (token : TokenKind) : Prop :=
  ∀ opening closing, Brackets opening closing → token ≠ opening ∧ token ≠ closing

theorem plain_symbol {symbol : Char} (h : symbol ∉ ['(', ')', '[', ']', '{', '}']) :
    Plain (.symbol symbol) := by
  rintro _ _ (⟨rfl, rfl⟩ | ⟨rfl, rfl⟩ | ⟨rfl, rfl⟩) <;>
    exact ⟨fun heq => h (by cases heq; decide), fun heq => h (by cases heq; decide)⟩

theorem plain_ident {name : String} : Plain (.ident name) := by
  rintro _ _ (⟨rfl, rfl⟩ | ⟨rfl, rfl⟩ | ⟨rfl, rfl⟩) <;> exact ⟨nofun, nofun⟩

theorem plain_number {raw : String} : Plain (.number raw) := by
  rintro _ _ (⟨rfl, rfl⟩ | ⟨rfl, rfl⟩ | ⟨rfl, rfl⟩) <;> exact ⟨nofun, nofun⟩

theorem plain_str {value : String} : Plain (.str value) := by
  rintro _ _ (⟨rfl, rfl⟩ | ⟨rfl, rfl⟩ | ⟨rfl, rfl⟩) <;> exact ⟨nofun, nofun⟩

theorem plain_field {token : TokenKind} {field : String}
    (h : token = .ident field ∨ token = .number field) : Plain token := by
  obtain rfl | rfl := h
  · exact plain_ident
  · exact plain_number

/-- the brackets of every kind close -/
def Nested (ts : Tokens) : Prop :=
  ∀ opening closing, Brackets opening closing → WellNested opening closing ts

namespace Nested

theorem nil : Nested [] := fun _ _ _ => WellNested.nil

theorem append (h : Nested ts) (h' : Nested us) : Nested (ts ++ us) :=
  fun opening closing hpair => (h opening closing hpair).append (h' opening closing hpair)

theorem cons {token : TokenKind} (hplain : Plain token) (h : Nested ts) : Nested (token :: ts) :=
  fun opening closing hpair => WellNested.cons (hplain opening closing hpair).1
    (hplain opening closing hpair).2 (h opening closing hpair)

theorem single {token : TokenKind} (hplain : Plain token) : Nested [token] := cons hplain nil

theorem of_plain : ∀ {ts : Tokens}, (∀ token ∈ ts, Plain token) → Nested ts
  | [], _ => nil
  | _ :: _, h => cons (h _ List.mem_cons_self) (of_plain fun _ hmem => h _ (List.mem_cons_of_mem _ hmem))

theorem wrap {opening closing : TokenKind} (hpair : Brackets opening closing) (h : Nested ts) :
    Nested (opening :: ts ++ [closing]) := by
  intro opening' closing' hpair'
  by_cases hsame : opening = opening'
  · have hclosing : closing = closing' := by
      obtain ⟨rfl, rfl⟩ | ⟨rfl, rfl⟩ | ⟨rfl, rfl⟩ := hpair <;>
        obtain ⟨rfl, rfl⟩ | ⟨rfl, rfl⟩ | ⟨rfl, rfl⟩ := hpair' <;> first | rfl | cases hsame
    obtain rfl := hsame
    obtain rfl := hclosing
    refine WellNested.wrap ?_ (h _ _ hpair')
    obtain ⟨rfl, rfl⟩ | ⟨rfl, rfl⟩ | ⟨rfl, rfl⟩ := hpair <;> decide
  · -- brackets of another kind
    have hother : (opening ≠ closing' ∧ closing ≠ opening') ∧ closing ≠ closing' := by
      obtain ⟨rfl, rfl⟩ | ⟨rfl, rfl⟩ | ⟨rfl, rfl⟩ := hpair <;>
        obtain ⟨rfl, rfl⟩ | ⟨rfl, rfl⟩ | ⟨rfl, rfl⟩ := hpair' <;>
        first | exact absurd rfl hsame | decide
    exact ((WellNested.cons hsame hother.1.1 (h _ _ hpair')).append
      (WellNested.cons hother.1.2 hother.2 WellNested.nil))

end Nested

theorem Path.nested {first name : String} (h : Path first name ts) : Nested ts := by
  obtain ⟨segments⟩ := h
  refine Nested.of_plain fun token hmem => ?_
  obtain rfl | hmem := List.mem_cons.mp hmem
  · exact plain_ident
  · obtain ⟨segment, -, hmem⟩ := List.mem_flatMap.mp hmem
    simp only [List.mem_cons, List.not_mem_nil, or_false] at hmem
    obtain rfl | rfl | rfl := hmem
    · exact plain_symbol (by decide)
    · exact plain_symbol (by decide)
    · exact plain_ident

theorem DimText.nested {dim : ArrayDim} (h : DimText dim ts) : Nested ts := by
  cases h with
  | dynamic => exact Nested.nil
  | inferred => exact Nested.single plain_ident
  | fixed h => exact Nested.single plain_number
  | constant hpath h => exact hpath.nested

theorem DimsText.nested {dims : List ArrayDim} (h : DimsText dims ts) : Nested ts := by
  induction h with
  | nil => exact Nested.nil
  | @cons dim dims t ts hdim hdims ih =>
    have hsplit : .symbol '[' :: t ++ .symbol ']' :: ts = (.symbol '[' :: t ++ [.symbol ']']) ++ ts := by
      rw [List.append_assoc, List.singleton_append]
    rw [hsplit]
    exact (Nested.wrap (.inr (.inl ⟨rfl, rfl⟩)) hdim.nested).append ih

theorem TypeText.nested {ty : SilTypeRef} (h : TypeText ty ts) : Nested ts := by
  cases h with
  | plain hpath hdims => exact hpath.nested.append hdims.nested
  | handle hhead hpath hdims =>
    exact ((hhead.nested.append (hpath.nested.cons (plain_symbol (by decide)))).append
      (hdims.nested.cons (plain_symbol (by decide))))

theorem hexText_nested {raw : String} : ∀ {k : Nat}, Nested (hexText k raw)
  | 0 => Nested.single plain_number
  | k + 1 => by
    have hwrap : hexText (k + 1) raw = .symbol '(' :: hexText k raw ++ [.symbol ')'] := by
      unfold hexText
      rw [List.replicate_succ, List.replicate_succ']
      simp
    rw [hwrap]
    exact Nested.wrap (.inl ⟨rfl, rfl⟩) hexText_nested

theorem HexArgument.nested {raw : String} {digits : List Char} (h : HexArgument ts raw digits) :
    Nested ts := by
  obtain ⟨-, rfl | rfl⟩ := h
  · rw [List.append_nil]
    exact Nested.wrap (.inl ⟨rfl, rfl⟩) hexText_nested
  · exact Nested.wrap (.inl ⟨rfl, rfl⟩) (hexText_nested.append (Nested.single (plain_symbol (by decide))))

theorem operatorText_nested {op : BinaryOp} : Nested (operatorText op) := by
  refine Nested.of_plain fun token hmem => ?_
  cases op <;> simp only [operatorText, List.mem_cons, List.not_mem_nil, or_false, or_self] at hmem <;>
    first
    | (obtain rfl := hmem; exact plain_symbol (by decide))
    | (obtain rfl | rfl := hmem <;> exact plain_symbol (by decide))

/-- **The brackets of a phrase close.** -/
theorem Derives.nested (h : Derives crates phrase ts) : Nested ts := by
  have hparen : Brackets (.symbol '(') (.symbol ')') := .inl ⟨rfl, rfl⟩
  have hbrace : Brackets (.symbol '{') (.symbol '}') := .inr (.inr ⟨rfl, rfl⟩)
  have hbracket : Brackets (.symbol '[') (.symbol ']') := .inr (.inl ⟨rfl, rfl⟩)
  have hdot : Plain (.symbol '.') := plain_symbol (by decide)
  have hcolon : Plain (.symbol ':') := plain_symbol (by decide)
  have hcomma : Plain (.symbol ',') := plain_symbol (by decide)
  induction h with
  | binary hlevel hl hr ihl ihr => exact (ihl.append operatorText_nested).append ihr
  | @unary level op expr ts hlevel h ih =>
    refine ih.cons ?_
    cases op <;> exact plain_symbol (by decide)
  | paren hlevel h ih => exact ih.wrap hparen
  | number => exact Nested.single plain_number
  | quantity => exact (Nested.single plain_ident).cons plain_number
  | string => exact Nested.single plain_str
  | bool => exact Nested.single plain_ident
  | date => exact ((Nested.single plain_str).wrap hparen).cons plain_ident
  | new hlevel hpath h ih =>
    rw [List.append_assoc, List.cons_append]
    exact (hpath.nested.append (ih.wrap hparen)).cons plain_ident
  | identifier hlevel hpath hfirst => exact hpath.nested
  | call hlevel hpath hfirst hdate h hhex ih =>
    rw [List.append_assoc]
    exact hpath.nested.append (ih.wrap hparen)
  | typeCall hlevel hpath hfirst hdims h hhex ih =>
    rw [List.append_assoc]
    exact (hpath.nested.append hdims.nested).append (ih.wrap hparen)
  | hexArray hlevel hpath hfirst hdims hbase harg hvalues h =>
    exact (hpath.nested.append hdims.nested).append harg.nested
  | hexCall hlevel hpath hfirst hdate hdims hbase harg hvalues h =>
    exact (hpath.nested.append hdims.nested).append harg.nested
  | typedArray hlevel hpath hfirst hdims h hvalues ih =>
    rw [List.append_assoc]
    exact (hpath.nested.append hdims.nested).append (ih.wrap hbrace)
  | braced hlevel h ih => exact ih.wrap hbrace
  | structLiteral hlevel hpath hfirst h ih =>
    rw [List.append_assoc]
    exact hpath.nested.append (ih.wrap hbrace)
  | index hlevel h hi ih ihi =>
    rw [List.append_assoc]
    exact ih.append (ihi.wrap hbracket)
  | cast hlevel h hty ih => exact ih.append (hty.nested.cons plain_ident)
  | part hlevel h htoken hpart ih | length hlevel h htoken hpart ih
  | member hlevel h htoken hpart hlength hmember ih =>
    exact ih.append ((Nested.single (plain_field htoken)).cons hdot)
  | method hlevel h htoken hpart hargs hmethod ih ihargs =>
    rw [List.append_assoc]
    exact ih.append (((ihargs.wrap hparen).cons (plain_field htoken)).cons hdot)
  | noItems | noFields => exact Nested.nil
  | item h ih | positional h hsecond ih => exact ih
  | consItem h hs ih ihs => exact ih.append (ihs.cons hcomma)
  | named h ih => exact (ih.cons hcolon).cons plain_ident
  | consNamed h hs ih ihs =>
    exact ((ih.cons hcolon).cons plain_ident).append (ihs.cons hcomma)
  | consPositional h hsecond hs ih ihs => exact ih.append (ihs.cons hcomma)

end

end Argent.Syntax.Expression
