import Argent.Syntax.ExpressionGrammar

/-!
# What the parser of expressions accepts is derived

Every function of the parser returns a tree that derives from the tokens it took.  The loop over the
operators carries a level at which its left side derives, and what follows binds no tighter than that.

* `Continues`, `Stops`       what may follow a phrase, and what the loop leaves;
* `SoundAt`                  one statement for every function, at one amount of fuel;
* `soundAt`                  **the parser is sound**, with every fuel;
* `parseExpression_sound`    what is read at the start of an expression derives.
-/

set_option linter.unusedSectionVars false

namespace Argent.Syntax.Expression
open Argent.Fallible Argent.Syntax

/-! ## tokens -/

section
variable {tokens rest : Tokens}

theorem eq_cons_of_current {token : TokenKind} (h : current tokens = token) (hne : token ≠ .eof) :
    tokens = token :: advance tokens := by
  cases tokens with
  | nil => exact absurd h.symm hne
  | cons other tokens =>
    obtain rfl : other = token := h
    cases other with
    | eof => exact absurd rfl hne
    | ident | number | str | arrow | symbol => rfl

theorem eq_cons_symbol {symbol : Char} (h : current tokens = .symbol symbol) :
    tokens = .symbol symbol :: advance tokens :=
  eq_cons_of_current h nofun

theorem eq_cons_ident {name : String} (h : current tokens = .ident name) :
    tokens = .ident name :: advance tokens :=
  eq_cons_of_current h nofun

theorem expectSymbol_eq_ok {symbol : Char} :
    expectSymbol symbol tokens = .ok rest ↔ tokens = .symbol symbol :: rest := by
  unfold expectSymbol
  constructor
  · intro h
    split_ifs at h with hcurrent
    · rw [← Except.ok.inj h]
      exact eq_cons_symbol hcurrent
    · cases h
  · rintro rfl
    exact if_pos rfl

theorem expectAnyIdent_eq_ok {name : String} :
    expectAnyIdent tokens = .ok (name, rest) ↔ tokens = .ident name :: rest := by
  unfold expectAnyIdent
  constructor
  · intro h
    split at h
    case h_1 name' hcurrent =>
      cases h
      exact eq_cons_ident hcurrent
    case h_2 => cases h
  · rintro rfl
    rfl

theorem expectString_eq_ok {value : String} :
    expectString tokens = .ok (value, rest) ↔ tokens = .str value :: rest := by
  unfold expectString
  constructor
  · intro h
    split at h
    case h_1 value' hcurrent =>
      cases h
      exact eq_cons_of_current hcurrent nofun
    case h_2 => cases h
  · rintro rfl
    rfl

theorem qualifiedTail_ok : ∀ {tokens : Tokens} {first name : String},
    qualifiedTail first tokens = .ok (name, rest) →
      ∃ segments, tokens = pathTail segments ++ rest ∧ name = pathName first segments := by
  intro tokens first name h
  fun_induction qualifiedTail first tokens with
  | case1 first segment tokens ih =>
    obtain ⟨segments, rfl, rfl⟩ := ih h
    exact ⟨segment :: segments, rfl, rfl⟩
  | case2 | case3 => cases h
  | case4 first tokens =>
    cases h
    exact ⟨[], rfl, rfl⟩

theorem expectAnyQualifiedIdent_ok {name : String}
    (h : expectAnyQualifiedIdent tokens = .ok (name, rest)) :
    ∃ first t, tokens = t ++ rest ∧ Path first name t ∧ current tokens = .ident first := by
  obtain ⟨⟨first, mid⟩, hident, h⟩ := bind_eq_ok.mp h
  obtain rfl := expectAnyIdent_eq_ok.mp hident
  obtain ⟨segments, rfl, rfl⟩ := qualifiedTail_ok h
  exact ⟨first, _, rfl, Path.mk first segments, rfl⟩

/-! ## types -/

theorem parseDim_ok {dim : ArrayDim} (h : parseDim tokens = .ok (dim, rest)) :
    ∃ t, tokens = t ++ rest ∧ DimText dim t := by
  unfold parseDim at h
  split at h
  case h_1 =>
    cases h
    exact ⟨[], rfl, .dynamic⟩
  case h_2 name hcurrent =>
    split_ifs at h with hname
    · cases h
      refine ⟨[.ident "_"], ?_, .inferred⟩
      rw [← hname]
      exact eq_cons_ident hcurrent
    · obtain ⟨⟨name', mid⟩, hpath, h⟩ := bind_eq_ok.mp h
      obtain ⟨rfl, rfl⟩ := Prod.mk.inj (Except.ok.inj h)
      obtain ⟨first, t, htokens, hpath, hfirst⟩ := expectAnyQualifiedIdent_ok hpath
      obtain rfl := TokenKind.ident.inj (hcurrent.symm.trans hfirst)
      exact ⟨t, htokens, .constant hpath hname⟩
  case h_3 raw hcurrent =>
    split at h
    case h_1 len hlen =>
      cases h
      exact ⟨[.number raw], eq_cons_of_current hcurrent nofun, .fixed hlen⟩
    case h_2 => cases h
  case h_4 => cases h

theorem parseDims_ok : ∀ {fuel : Nat} {tokens rest : Tokens} {dims : List ArrayDim},
    parseDims fuel tokens = .ok (dims, rest) →
      current rest ≠ .symbol '[' ∧ ∃ ts, tokens = ts ++ rest ∧ DimsText dims ts
  | 0, _, _, _, h => by cases h
  | fuel + 1, tokens, rest, dims, h => by
    rw [parseDims] at h
    split_ifs at h with hcurrent
    · obtain ⟨⟨dim, mid⟩, hdim, h⟩ := bind_eq_ok.mp h
      obtain ⟨next, hclose, h⟩ := bind_eq_ok.mp h
      obtain ⟨⟨dims', rest'⟩, hdims, h⟩ := bind_eq_ok.mp h
      obtain ⟨rfl, rfl⟩ := Prod.mk.inj (Except.ok.inj h)
      obtain ⟨hstop, ts, hts, htext⟩ := parseDims_ok hdims
      obtain ⟨t, ht, hdimText⟩ := parseDim_ok hdim
      refine ⟨hstop, _, ?_, .cons hdimText htext⟩
      rw [eq_cons_symbol hcurrent, ht, expectSymbol_eq_ok.mp hclose, hts]
      simp
    · cases h
      exact ⟨hcurrent, [], rfl, .nil⟩

theorem parseSilTypeTail_ok {name : String} {ty : SilTypeRef}
    (h : parseSilTypeTail name tokens = .ok (ty, rest)) :
    current rest ≠ .symbol '[' ∧ ∀ {first : String} {head : Tokens}, Path first name head →
      ∃ ts, tokens = ts ++ rest ∧ TypeText ty (head ++ ts) := by
  obtain ⟨mid, hstate, h⟩ := bind_eq_ok.mp h
  obtain ⟨⟨dims, rest'⟩, hdims, h⟩ := bind_eq_ok.mp h
  obtain ⟨rfl, rfl⟩ := Prod.mk.inj (Except.ok.inj h)
  obtain ⟨hstop, ts, rfl, htext⟩ := parseDims_ok hdims
  refine ⟨hstop, fun {first head} hhead => ?_⟩
  unfold skipActorState at hstate
  split_ifs at hstate with hhandle
  · obtain ⟨rfl, hless⟩ := hhandle
    obtain ⟨⟨state, next⟩, hpath, hstate⟩ := bind_eq_ok.mp hstate
    obtain ⟨first', t, ht, hpath, -⟩ := expectAnyQualifiedIdent_ok hpath
    refine ⟨.symbol '<' :: t ++ .symbol '>' :: ts, ?_, ?_⟩
    · rw [eq_cons_symbol hless, ht, expectSymbol_eq_ok.mp hstate]
      simp
    · rw [← List.append_assoc]
      exact .handle hhead hpath htext
  · obtain rfl := Except.ok.inj hstate
    exact ⟨ts, rfl, .plain hhead htext⟩

/-- behind a name that no state follows there are dimensions only -/
theorem parseSilTypeTail_dims {name : String} {ty : SilTypeRef}
    (h : parseSilTypeTail name tokens = .ok (ty, rest)) (hless : current tokens ≠ .symbol '<') :
    ∃ dims ts, ty = ⟨typeBase name, dims⟩ ∧ tokens = ts ++ rest ∧ DimsText dims ts := by
  obtain ⟨mid, hstate, h⟩ := bind_eq_ok.mp h
  obtain ⟨⟨dims, rest'⟩, hdims, h⟩ := bind_eq_ok.mp h
  obtain ⟨rfl, rfl⟩ := Prod.mk.inj (Except.ok.inj h)
  unfold skipActorState at hstate
  rw [if_neg fun hhandle => hless hhandle.2] at hstate
  obtain rfl := Except.ok.inj hstate
  obtain ⟨-, ts, hts, htext⟩ := parseDims_ok hdims
  exact ⟨dims, ts, rfl, hts, htext⟩

theorem parseSilType_ok {ty : SilTypeRef} (h : parseSilType tokens = .ok (ty, rest)) :
    current rest ≠ .symbol '[' ∧ ∃ ts, tokens = ts ++ rest ∧ TypeText ty ts := by
  obtain ⟨⟨name, mid⟩, hname, htail⟩ := bind_eq_ok.mp h
  obtain ⟨first, head, rfl, hhead, -⟩ := expectAnyQualifiedIdent_ok hname
  obtain ⟨hstop, htail⟩ := parseSilTypeTail_ok htail
  obtain ⟨ts, rfl, hty⟩ := htail hhead
  exact ⟨hstop, head ++ ts, (List.append_assoc _ _ _).symm, hty⟩

/-! ## hexadecimal numbers -/

theorem leadingParens_append {k : Nat} (h : current rest ≠ .symbol '(') :
    leadingParens (List.replicate k (.symbol '(') ++ rest) = (k, rest) := by
  induction k with
  | zero =>
    show leadingParens rest = (0, rest)
    unfold leadingParens
    split
    · exact absurd rfl h
    · rfl
  | succ k ih =>
    rw [List.replicate_succ, List.cons_append, leadingParens, ih]

theorem leadingParens_eq (tokens : Tokens) : tokens =
    List.replicate (leadingParens tokens).1 (.symbol '(') ++ (leadingParens tokens).2 := by
  fun_induction leadingParens tokens with
  | case1 tokens ih =>
    rw [List.replicate_succ, List.cons_append]
    exact congrArg _ ih
  | case2 => rfl

theorem closeParens_eq_some {k : Nat} :
    closeParens k tokens = some rest ↔ tokens = List.replicate k (.symbol ')') ++ rest := by
  fun_induction closeParens k tokens with
  | case1 tokens => exact Option.some_inj
  | case2 k tokens ih =>
    rw [ih, List.replicate_succ, List.cons_append]
    exact (List.cons_inj_right _).symm
  | case3 k tokens hother =>
    refine ⟨nofun, fun htokens => ?_⟩
    exact (hother _ htokens).elim

theorem hexArgument_of {args : Tokens} {raw : String} {digits : List Char}
    (h : HexArgument args raw digits) : hexArgument (args ++ rest) = some (raw, digits, rest) := by
  cases h with
  | @mk k _ _ comma hdigits hcomma =>
    have hlead : leadingParens (.symbol '(' :: hexText k raw ++ comma ++ [.symbol ')'] ++ rest) =
        (k + 1, .number raw :: (List.replicate k (.symbol ')') ++ (comma ++ .symbol ')' :: rest))) := by
      have hcurrent : current (.number raw :: (List.replicate k (.symbol ')') ++
          (comma ++ .symbol ')' :: rest))) ≠ .symbol '(' := nofun
      rw [← leadingParens_append hcurrent]
      simp [hexText, List.replicate_succ]
    rw [hexArgument, hlead]
    show (stripHex raw.toList).bind _ = _
    rw [hdigits, Option.bind_some]
    show (closeParens k _).bind _ = _
    rw [closeParens_eq_some.mpr rfl, Option.bind_some]
    obtain rfl | rfl := hcomma
    · rfl
    · rfl

theorem hexArgument_cons {ts : Tokens} {raw : String} {digits : List Char}
    (h : HexArgument (.symbol '(' :: ts ++ [.symbol ')']) raw digits) :
    hexArgument (.symbol '(' :: ts ++ .symbol ')' :: rest) = some (raw, digits, rest) := by
  have harg : hexArgument (.symbol '(' :: ts ++ [.symbol ')'] ++ rest) = some (raw, digits, rest) :=
    hexArgument_of h
  rwa [List.append_assoc, List.singleton_append] at harg

theorem hexArgument_ok {raw : String} {digits : List Char}
    (h : hexArgument tokens = some (raw, digits, rest)) :
    ∃ args, tokens = args ++ rest ∧ HexArgument args raw digits := by
  have htokens := leadingParens_eq tokens
  unfold hexArgument at h
  split at h
  case h_2 => cases h
  case h_1 k raw' mid hopens =>
    rw [hopens] at htokens
    obtain ⟨digits', hdigits, hbody⟩ := Option.bind_eq_some_iff.mp h
    obtain ⟨closing, hclose, hend⟩ := Option.bind_eq_some_iff.mp hbody
    obtain rfl := closeParens_eq_some.mp hclose
    have hcomma : ∃ comma : Tokens, (comma = [] ∨ comma = [.symbol ',']) ∧ closing = comma ++
        if current closing = .symbol ',' then advance closing else closing := by
      split_ifs with hcurrent
      · exact ⟨_, .inr rfl, eq_cons_symbol hcurrent⟩
      · exact ⟨[], .inl rfl, rfl⟩
    obtain ⟨comma, hcomma, hclosing⟩ := hcomma
    simp only at hend
    generalize (if current closing = .symbol ',' then advance closing else closing) = left
      at hend hclosing
    split_ifs at hend with hcurrent
    cases hend
    refine ⟨_, ?_, @HexArgument.mk k _ _ _ hdigits hcomma⟩
    rw [htokens, hclosing, eq_cons_symbol hcurrent]
    simp [hexText, List.replicate_succ, advance]

variable {crates : ExprCrates} {ty : SilTypeRef} {values : List Expr}

theorem parseHexCast_none (h : parseHexCast crates ty tokens = .ok none) (htakes : TakesHex crates ty) :
    hexArgument tokens = none := by
  unfold parseHexCast at h
  cases harg : hexArgument tokens with
  | none => rfl
  | some found =>
    obtain ⟨raw, digits, mid⟩ := found
    rw [harg] at h
    simp only at h
    split_ifs at h with hbytes
    · obtain ⟨values, -, hcast⟩ := bind_eq_ok.mp h
      split at hcast
      case h_1 => split_ifs at hcast <;> cases hcast
      all_goals cases hcast
    · obtain hbytes' | ⟨len, hlen⟩ := htakes
      · exact absurd hbytes' hbytes
      · rw [hlen] at h
        obtain ⟨values, -, hcast⟩ := bind_eq_ok.mp h
        split_ifs at hcast <;> cases hcast

theorem parseHexCast_some {expr : Expr} (h : parseHexCast crates ty tokens = .ok (some (expr, rest))) :
    ∃ raw digits values, hexArgument tokens = some (raw, digits, rest) ∧
      hexBytes raw digits = .ok values ∧
      ((ty.base = .byte ∧ ty.arrayDims.length = 1 ∧ arrayOf ty values = some expr) ∨
        (¬ (ty.base = .byte ∧ ty.arrayDims.length = 1) ∧
          crates.fixedByteSequenceLen ty.base = some values.length ∧
          expr = .call (crates.typeName ty) [.array ⟨.byte, [.fixed values.length]⟩ values])) := by
  unfold parseHexCast at h
  cases harg : hexArgument tokens with
  | none =>
    rw [harg] at h
    cases h
  | some found =>
    obtain ⟨raw, digits, mid⟩ := found
    rw [harg] at h
    simp only at h
    split_ifs at h with hbytes
    · obtain ⟨values, hvalues, hcast⟩ := bind_eq_ok.mp h
      obtain ⟨dim, hdim⟩ := List.length_eq_one_iff.mp hbytes.2
      rw [hdim] at hcast
      have hresult : arrayOf ty values = some expr ∧ mid = rest := by
        unfold arrayOf
        rw [hdim]
        cases dim with
        | fixed expected =>
          change (if expected ≠ values.length then _ else _) = _ at hcast
          show (if expected = values.length then _ else _) = _ ∧ _
          split_ifs at hcast with hlen
          · cases hcast
          · rw [if_pos (not_not.mp hlen)]
            cases hcast
            exact ⟨rfl, rfl⟩
        | inferred | dynamic | constant name =>
          cases hcast
          exact ⟨rfl, rfl⟩
      exact ⟨raw, digits, values, by rw [hresult.2], hvalues, .inl ⟨hbytes.1, hbytes.2, hresult.1⟩⟩
    · cases hlen : crates.fixedByteSequenceLen ty.base with
      | none =>
        rw [hlen] at h
        cases h
      | some expected =>
        rw [hlen] at h
        obtain ⟨values, hvalues, hcast⟩ := bind_eq_ok.mp h
        split_ifs at hcast with hlength
        · cases hcast
        · obtain rfl := not_not.mp hlength
          cases hcast
          exact ⟨raw, digits, values, rfl, hvalues, .inr ⟨hbytes, rfl, rfl⟩⟩

/-! ## operators -/

theorem bindingPower_bounds (op : BinaryOp) : 1 ≤ bindingPower op ∧ bindingPower op ≤ 9 := by
  cases op <;> decide

theorem binaryOperator_some {op : BinaryOp} {bp width : Nat}
    (h : binaryOperator tokens = some (op, bp, width)) :
    bp = bindingPower op ∧ tokens = operatorText op ++ tokens.drop width ∧ 1 ≤ width := by
  have hone : ∀ {symbol : Char}, current tokens = .symbol symbol →
      tokens = .symbol symbol :: tokens.drop 1 := by
    intro symbol hcurrent
    rw [eq_cons_symbol hcurrent]
    rfl
  have htwo : ∀ {symbol second : Char}, current tokens = .symbol symbol →
      current (tokens.drop 1) = .symbol second →
        tokens = .symbol symbol :: .symbol second :: tokens.drop 2 := by
    intro symbol second hcurrent hsecond
    have hrest := eq_cons_symbol hsecond
    rw [eq_cons_symbol hcurrent] at hrest ⊢
    rw [List.drop_succ_cons, List.drop_zero] at hrest
    rw [hrest]
    rfl
  unfold binaryOperator at h
  split at h <;> cases h <;>
    first
    | exact ⟨rfl, htwo ‹_› ‹_›, by decide⟩
    | exact ⟨rfl, hone ‹_›, by decide⟩

/-- how an operator is read, where no second symbol of one follows -/
theorem binaryOperator_text {op : BinaryOp} (h : Starter (current rest)) :
    binaryOperator (operatorText op ++ rest) =
      some (op, bindingPower op, (operatorText op).length) := by
  obtain ⟨token, rest, rfl, hstart⟩ := exists_cons_of_starter h
  cases op with
  | or | and | eq | ne | le | ge | bitXor | add | sub | mul | div | mod => rfl
  | bitOr | bitAnd | lt | gt =>
    cases token with
    | ident | number | str => rfl
    | arrow | eof => exact hstart.elim
    | symbol symbol => obtain rfl | rfl | rfl | rfl := hstart <;> rfl

end

/-! ## what follows -/

/-- no operator of `rest` binds tighter than `level`, and no postfix belongs to a phrase of it -/
structure Continues (level : Nat) (rest : Tokens) : Prop where
  member : current rest = .symbol '.' ∨ current rest = .ident "as" → 11 ≤ level
  index : current rest = .symbol '[' → 12 ≤ level
  operator : ∀ op bp width, binaryOperator rest = some (op, bp, width) → bp ≤ level

/-- the loop with the binding power `minBp` has nothing to take from `rest` -/
def Stops (minBp : Nat) (rest : Tokens) : Prop :=
  checkExpressionPostfix rest = false ∧
    ∀ op bp width, binaryOperator rest = some (op, bp, width) → bp < minBp

section
variable {level minBp : Nat} {rest : Tokens}

theorem continues_closed : Continues 12 rest where
  member _ := by decide
  index _ := le_rfl
  operator op bp width h := by
    rw [(binaryOperator_some h).1]
    exact Nat.le_trans (bindingPower_bounds op).2 (by decide)

theorem continues_cast (h : current rest ≠ .symbol '[') : Continues 11 rest where
  member _ := le_rfl
  index hindex := absurd hindex h
  operator op bp width h := Nat.le_trans ((binaryOperator_some h).1 ▸ (bindingPower_bounds op).2)
    (by decide)

theorem checkExpressionPostfix_eq_false : checkExpressionPostfix rest = false ↔
    current rest ≠ .symbol '.' ∧ current rest ≠ .symbol '[' ∧ current rest ≠ .ident "as" := by
  rw [checkExpressionPostfix, decide_eq_false_iff_not, not_or, not_or]

theorem Stops.continues (h : Stops minBp rest) (hlevel : minBp ≤ level + 1) : Continues level rest := by
  obtain ⟨hbehind, hoperator⟩ := h
  obtain ⟨hdot, hbracket, has⟩ := checkExpressionPostfix_eq_false.mp hbehind
  exact ⟨fun h => (h.elim hdot has).elim, fun h => (hbracket h).elim,
    fun op bp width h => Nat.le_of_lt_succ (Nat.lt_of_lt_of_le (hoperator op bp width h) hlevel)⟩

end

/-! ## one step of every function -/

/-- what the functions of the parser return with the fuel `fuel` -/
structure SoundAt (crates : ExprCrates) (fuel : Nat) : Prop where
  expressionBp : ∀ {minBp : Nat} {tokens rest : Tokens} {expr : Expr}, minBp ≤ 10 →
    parseExpressionBp crates none fuel minBp tokens = .ok (expr, rest) →
      ∃ ts level, tokens = ts ++ rest ∧ Derives crates (.expr level expr) ts ∧ minBp ≤ level ∧
        Stops minBp rest
  operators : ∀ {minBp level : Nat} {ts tokens rest : Tokens} {left expr : Expr}, minBp ≤ 10 →
    Derives crates (.expr level left) ts → minBp ≤ level →
      Continues level tokens →
        parseOperators crates none fuel minBp left tokens = .ok (expr, rest) →
          ∃ us level', tokens = us ++ rest ∧ Derives crates (.expr level' expr) (ts ++ us) ∧
            minBp ≤ level' ∧ Stops minBp rest
  head : ∀ {tokens rest : Tokens} {expr : Expr},
    parsePrefix crates none fuel tokens = .ok (expr, rest) →
      ∃ ts level, tokens = ts ++ rest ∧ Derives crates (.expr level expr) ts ∧ 10 ≤ level ∧
        Continues level rest
  name : ∀ {tokens rest : Tokens} {expr : Expr}, (∀ first ∈ reserved, current tokens ≠ .ident first) →
    ¬ (current tokens = .ident "date" ∧ current (advance tokens) = .symbol '(') →
      parseNameExpression crates none fuel tokens = .ok (expr, rest) →
        ∃ ts, tokens = ts ++ rest ∧ Derives crates (.expr 12 expr) ts
  typedArray : ∀ {ty : SilTypeRef} {tokens rest : Tokens} {expr : Expr},
    parseTypedArray crates none fuel ty tokens = .ok (expr, rest) →
      ∃ ts values, tokens = .symbol '{' :: ts ++ .symbol '}' :: rest ∧
        Derives crates (.items values) ts ∧ arrayOf ty values = some expr
  braced : ∀ {name : String} {tokens rest : Tokens} {expr : Expr},
    parseBracedLiteral crates none fuel name tokens = .ok (expr, rest) →
      ∃ ts fields, tokens = .symbol '{' :: ts ++ .symbol '}' :: rest ∧
        Derives crates (.fields fields) ts ∧ expr = .structLiteral name fields
  fields : ∀ {tokens rest : Tokens} {fields : List (String × Expr)},
    parseFields crates none fuel tokens = .ok (fields, rest) →
      ∃ ts, tokens = ts ++ rest ∧ Derives crates (.fields fields) ts
  field : ∀ {tokens rest : Tokens} {name : String} {expr : Expr},
    parseField crates none fuel tokens = .ok ((name, expr), rest) →
      ∃ ts, Derives crates (.expr 0 expr) ts ∧
        (tokens = .ident name :: .symbol ':' :: ts ++ rest ∨
          (tokens = ts ++ rest ∧ name = "" ∧ ∀ name us, ts ≠ .ident name :: .symbol ':' :: us))
  items : ∀ {stop : Char} {tokens rest : Tokens} {exprs : List Expr},
    parseItems crates none fuel stop tokens = .ok (exprs, rest) →
      ∃ ts, tokens = ts ++ rest ∧ Derives crates (.items exprs) ts
  args : ∀ {tokens rest : Tokens} {exprs : List Expr},
    parseExpressionArgs crates none fuel tokens = .ok (exprs, rest) →
      ∃ ts, tokens = .symbol '(' :: ts ++ .symbol ')' :: rest ∧ Derives crates (.items exprs) ts
  suffix : ∀ {level : Nat} {ts tokens rest : Tokens} {source expr : Expr},
    Derives crates (.expr level source) ts → Continues level tokens →
      checkExpressionPostfix tokens = true →
        parsePostfix crates none fuel source tokens = .ok (expr, rest) →
          ∃ us level', us ≠ [] ∧ tokens = us ++ rest ∧
            Derives crates (.expr level' expr) (ts ++ us) ∧ 11 ≤ level' ∧ Continues level' rest
  member : ∀ {ts tokens rest : Tokens} {source expr : Expr} {field : String} {token : TokenKind},
    Derives crates (.expr 11 source) ts → token = .ident field ∨ token = .number field →
      parseMember crates none fuel source field tokens = .ok (expr, rest) →
        ∃ us, tokens = us ++ rest ∧ Derives crates (.expr 12 expr) (ts ++ .symbol '.' :: token :: us)

section
variable {crates : ExprCrates} {fuel : Nat} {tokens rest : Tokens}

theorem parseExpressionBp_ok (ih : SoundAt crates fuel) {minBp : Nat} {expr : Expr}
    (hbp : minBp ≤ 10) (h : parseExpressionBp crates none (fuel + 1) minBp tokens = .ok (expr, rest)) :
    ∃ ts level, tokens = ts ++ rest ∧ Derives crates (.expr level expr) ts ∧ minBp ≤ level ∧
      Stops minBp rest := by
  rw [parseExpressionBp] at h
  obtain ⟨⟨left, mid⟩, hhead, hloop⟩ := bind_eq_ok.mp h
  obtain ⟨ts, level, rfl, hleft, hlevel, hcontinues⟩ := ih.head hhead
  obtain ⟨us, level', rfl, hexpr, hlevel', hstops⟩ :=
    ih.operators hbp hleft (Nat.le_trans hbp hlevel) hcontinues hloop
  exact ⟨ts ++ us, level', (List.append_assoc _ _ _).symm, hexpr, hlevel', hstops⟩

theorem parseOperators_ok (ih : SoundAt crates fuel) {minBp level : Nat} {ts : Tokens}
    {left expr : Expr} (hbp : minBp ≤ 10) (hleft : Derives crates (.expr level left) ts)
    (hlevel : minBp ≤ level) (hcontinues : Continues level tokens)
    (h : parseOperators crates none (fuel + 1) minBp left tokens = .ok (expr, rest)) :
    ∃ us level', tokens = us ++ rest ∧ Derives crates (.expr level' expr) (ts ++ us) ∧
      minBp ≤ level' ∧ Stops minBp rest := by
  have hdone : (∃ us level', tokens = us ++ tokens ∧
      Derives crates (.expr level' left) (ts ++ us) ∧ minBp ≤ level') :=
    ⟨[], level, rfl, by rwa [List.append_nil], hlevel⟩
  rw [parseOperators, if_neg (show ¬ pastLimit none tokens = true from Bool.false_ne_true)] at h
  split_ifs at h with hbehind
  · -- a postfix
    obtain ⟨⟨next, mid⟩, hnext, hloop⟩ := bind_eq_ok.mp h
    obtain ⟨us, level', -, rfl, hderives, hlevel', hcontinues'⟩ :=
      ih.suffix hleft hcontinues hbehind.2 hnext
    obtain ⟨vs, level'', rfl, hexpr, hle, hstops⟩ := ih.operators hbp hderives
      (Nat.le_trans hbp (Nat.le_of_succ_le hlevel')) hcontinues' hloop
    exact ⟨us ++ vs, level'', (List.append_assoc _ _ _).symm, by rwa [← List.append_assoc], hle,
      hstops⟩
  · have hbehind' : checkExpressionPostfix tokens = false := by
      rw [← Bool.not_eq_true]
      exact fun hcheck => hbehind ⟨hbp, hcheck⟩
    split at h
    case h_1 hnone =>
      cases h
      obtain ⟨us, level', htokens, hderives, hle⟩ := hdone
      refine ⟨us, level', htokens, hderives, hle, hbehind', fun op bp width hop => ?_⟩
      rw [hnone] at hop
      cases hop
    case h_2 op bp width hop =>
      split_ifs at h with hlow
      · cases h
        obtain ⟨us, level', htokens, hderives, hle⟩ := hdone
        refine ⟨us, level', htokens, hderives, hle, hbehind', fun op' bp' width' hop' => ?_⟩
        obtain ⟨rfl, rfl, rfl⟩ : op = op' ∧ bp = bp' ∧ width = width' := by
          simpa using hop.symm.trans hop'
        exact hlow
      · -- an operator with its right side
        obtain ⟨rfl, htokens, -⟩ := binaryOperator_some hop
        obtain ⟨⟨right, mid⟩, hright, hloop⟩ := bind_eq_ok.mp h
        have hpower := bindingPower_bounds op
        obtain ⟨us, level', hus, hderives, hlevel', hstops⟩ :=
          ih.expressionBp (Nat.succ_le_succ hpower.2) hright
        have hbinary : Derives crates (.expr (bindingPower op) (.binary op left right))
            (ts ++ operatorText op ++ us) :=
          .binary le_rfl (hleft.mono (hcontinues.operator _ _ _ hop)) (hderives.mono hlevel')
        obtain ⟨vs, level'', rfl, hexpr, hle, hstops'⟩ := ih.operators hbp hbinary
          (Nat.le_of_not_lt hlow) (hstops.continues le_rfl) hloop
        refine ⟨operatorText op ++ us ++ vs, level'', ?_, ?_, hle, hstops'⟩
        · rw [htokens, hus, List.append_assoc, List.append_assoc]
        · rwa [← List.append_assoc, ← List.append_assoc]

theorem parseNumberExpression_ok {raw : String} {expr : Expr}
    (h : parseNumberExpression raw tokens = .ok (expr, rest)) :
    ∃ ts, tokens = ts ++ rest ∧ Derives crates (.expr 12 expr) (.number raw :: ts) := by
  unfold parseNumberExpression at h
  split at h
  case h_1 => cases h
  case h_2 value hvalue =>
    split at h
    case h_1 scale temporal hunit =>
      split at h
      case h_2 => cases h
      case h_1 scaled hscaled =>
        cases h
        have hident : ∃ unit, current tokens = .ident unit := by
          cases hcurrent : current tokens with
          | ident unit => exact ⟨unit, rfl⟩
          | number | str | arrow | symbol | eof =>
            rw [hcurrent] at hunit
            cases hunit
        obtain ⟨unit, hcurrent⟩ := hident
        rw [hcurrent] at hunit
        exact ⟨[.ident unit], eq_cons_ident hcurrent, .quantity le_rfl hvalue hunit hscaled⟩
    case h_2 =>
      cases h
      exact ⟨[], rfl, .number le_rfl hvalue⟩

theorem parsePrefix_ok (ih : SoundAt crates fuel) {expr : Expr}
    (h : parsePrefix crates none (fuel + 1) tokens = .ok (expr, rest)) :
    ∃ ts level, tokens = ts ++ rest ∧ Derives crates (.expr level expr) ts ∧ 10 ≤ level ∧
      Continues level rest := by
  have hclosed : (∃ ts, tokens = ts ++ rest ∧ Derives crates (.expr 12 expr) ts) →
      ∃ ts level, tokens = ts ++ rest ∧ Derives crates (.expr level expr) ts ∧ 10 ≤ level ∧
        Continues level rest :=
    fun ⟨ts, htokens, hderives⟩ => ⟨ts, 12, htokens, hderives, by decide, continues_closed⟩
  -- an operator before its operand
  have hunary : ∀ op, current tokens = unaryText op →
      (parseExpressionBp crates none fuel 10 (advance tokens) >>= fun read =>
        pure (Expr.unary op read.1, read.2)) = .ok (expr, rest) →
          ∃ ts level, tokens = ts ++ rest ∧ Derives crates (.expr level expr) ts ∧ 10 ≤ level ∧
            Continues level rest := by
    intro op hcurrent hparse
    obtain ⟨⟨operand, mid⟩, hoperand, hresult⟩ := bind_eq_ok.mp hparse
    cases hresult
    obtain ⟨ts, level, hts, hderives, hlevel, hstops⟩ := ih.expressionBp le_rfl hoperand
    refine ⟨unaryText op :: ts, 10, ?_, .unary le_rfl (hderives.mono hlevel), le_rfl,
      hstops.continues (by decide)⟩
    rw [eq_cons_of_current hcurrent (by cases op <;> nofun), hts]
    rfl
  rw [parsePrefix] at h
  split at h
  case h_1 hcurrent => exact hunary .not hcurrent h
  case h_2 hcurrent => exact hunary .neg hcurrent h
  case h_3 hcurrent =>
    obtain ⟨⟨inner, mid⟩, hinner, hclose⟩ := bind_eq_ok.mp h
    obtain ⟨next, hnext, hresult⟩ := bind_eq_ok.mp hclose
    cases hresult
    obtain ⟨ts, level, hts, hderives, -, -⟩ := ih.expressionBp (Nat.zero_le 10) hinner
    refine hclosed ⟨_, ?_, .paren le_rfl (hderives.mono (Nat.zero_le level))⟩
    rw [eq_cons_symbol hcurrent, hts, expectSymbol_eq_ok.mp hnext]
    simp
  case h_4 hcurrent =>
    obtain ⟨ts, fields, rfl, hderives, rfl⟩ := ih.braced h
    refine hclosed ⟨_, ?_, .braced le_rfl hderives⟩
    simp
  case h_5 raw hcurrent =>
    obtain ⟨ts, hts, hderives⟩ := parseNumberExpression_ok h
    refine hclosed ⟨_, ?_, hderives⟩
    rw [eq_cons_of_current hcurrent nofun, hts]
    rfl
  case h_6 value hcurrent =>
    cases h
    exact hclosed ⟨[.str value], eq_cons_of_current hcurrent nofun, .string le_rfl⟩
  case h_7 name hcurrent =>
    split_ifs at h with hbool hnew hdate
    · cases h
      exact hclosed ⟨[.ident name], eq_cons_ident hcurrent, .bool le_rfl hbool⟩
    · obtain ⟨⟨name', mid⟩, hname, hargs⟩ := bind_eq_ok.mp h
      obtain ⟨⟨args, mid'⟩, hargs, hresult⟩ := bind_eq_ok.mp hargs
      cases hresult
      obtain ⟨first, t, ht, hpath, -⟩ := expectAnyQualifiedIdent_ok hname
      obtain ⟨ts, hts, hderives⟩ := ih.args hargs
      refine hclosed ⟨_, ?_, .new le_rfl hpath hderives⟩
      rw [eq_cons_ident hcurrent, ht, hts, hnew]
      simp
    · obtain ⟨mid, hopen, h⟩ := bind_eq_ok.mp h
      obtain ⟨⟨raw, mid'⟩, hraw, h⟩ := bind_eq_ok.mp h
      obtain ⟨mid'', hclose, h⟩ := bind_eq_ok.mp h
      split at h
      case h_2 => cases h
      case h_1 millis hmillis =>
        cases h
        refine hclosed ⟨_, ?_, .date le_rfl hmillis⟩
        rw [eq_cons_ident hcurrent, hdate.1, expectSymbol_eq_ok.mp hopen, expectString_eq_ok.mp hraw,
          expectSymbol_eq_ok.mp hclose]
        rfl
    · refine hclosed (ih.name (fun first hfirst hname => ?_) (fun hname => ?_) h)
      · obtain rfl := TokenKind.ident.inj (hcurrent.symm.trans hname)
        simp only [reserved, List.mem_cons, List.not_mem_nil, or_false] at hfirst
        obtain rfl | rfl | rfl := hfirst
        · exact hbool (.inl rfl)
        · exact hbool (.inr rfl)
        · exact hnew rfl
      · exact hdate ⟨TokenKind.ident.inj (hcurrent.symm.trans hname.1), hname.2⟩
  case h_8 => cases h

theorem parseNameExpression_ok (ih : SoundAt crates fuel) {expr : Expr}
    (hreserved : ∀ first ∈ reserved, current tokens ≠ .ident first)
    (hdate : ¬ (current tokens = .ident "date" ∧ current (advance tokens) = .symbol '('))
    (h : parseNameExpression crates none (fuel + 1) tokens = .ok (expr, rest)) :
    ∃ ts, tokens = ts ++ rest ∧ Derives crates (.expr 12 expr) ts := by
  rw [parseNameExpression] at h
  obtain ⟨⟨name, mid⟩, hname, hbody⟩ := bind_eq_ok.mp h
  obtain ⟨first, t, rfl, hpath, hcurrent⟩ := expectAnyQualifiedIdent_ok hname
  have hfirst : first ∉ reserved := fun hmem => hreserved first hmem hcurrent
  -- a hexadecimal number behind a type, whose dimensions may be none
  have hhex : ∀ {dims : List ArrayDim} {d mid' : Tokens}, DimsText dims d → mid = d ++ mid' →
      (t ++ d = [.ident "date"] → current mid' ≠ .symbol '(') →
      parseHexCast crates ⟨typeBase name, dims⟩ mid' = .ok (some (expr, rest)) →
      ∃ ts, t ++ mid = ts ++ rest ∧ Derives crates (.expr 12 expr) ts := by
    intro dims d mid' hdims hmid hnodate hcast
    obtain ⟨raw, digits, values, harg, hvalues, hcase⟩ := parseHexCast_some hcast
    obtain ⟨args, rfl, hargs⟩ := hexArgument_ok harg
    refine ⟨t ++ d ++ args, by rw [hmid]; simp, ?_⟩
    obtain ⟨hbase, hone, harray⟩ | ⟨hbytes, hlen, rfl⟩ := hcase
    · obtain ⟨dim, rfl⟩ := List.length_eq_one_iff.mp hone
      obtain hbase : typeBase name = .byte := hbase
      rw [hbase] at harray
      exact .hexArray le_rfl hpath hfirst hdims hbase hargs hvalues harray
    · refine .hexCall le_rfl hpath hfirst (fun heq => hnodate heq ?_) hdims hbytes hargs hvalues hlen
      cases hargs
      rfl
  simp only at hbody
  split_ifs at hbody with hbracket hparen hbrace
  · obtain ⟨⟨ty, mid'⟩, hty, hnext⟩ := bind_eq_ok.mp hbody
    have hstop := (parseSilTypeTail_ok hty).1
    obtain ⟨dims, d, rfl, hmid, hdims⟩ := parseSilTypeTail_dims hty (by rw [hbracket.1]; nofun)
    cases hdims with
    | nil =>
      rw [hmid] at hbracket
      exact absurd hbracket.1 hstop
    | @cons dim dims d ds hdim hdims =>
      replace hdims := DimsText.cons hdim hdims
      have hne : t ++ (.symbol '[' :: d ++ .symbol ']' :: ds) ≠ [.ident "date"] := by
        cases hpath
        intro heq
        simp at heq
      simp only at hnext
      split_ifs at hnext with hbrace
      · obtain ⟨ts, values, rfl, hitems, harray⟩ := ih.typedArray hnext
        refine ⟨_, ?_, .typedArray le_rfl hpath hfirst hdims hitems harray⟩
        rw [hmid]
        simp
      · obtain ⟨cast, hcast, hcall⟩ := bind_eq_ok.mp hnext
        cases cast with
        | some hex =>
          cases hcall
          exact hhex hdims hmid (fun heq => absurd heq hne) hcast
        | none =>
          obtain ⟨⟨args, mid''⟩, hargs, hresult⟩ := bind_eq_ok.mp hcall
          cases hresult
          obtain ⟨ts, rfl, hitems⟩ := ih.args hargs
          refine ⟨_, ?_, .typeCall le_rfl hpath hfirst hdims hitems fun htakes raw digits harg => ?_⟩
          · rw [hmid]
            simp
          · have hnone := parseHexCast_none hcast htakes
            rw [hexArgument_cons harg] at hnone
            cases hnone
  · obtain ⟨⟨ty, mid'⟩, hty, hnext⟩ := bind_eq_ok.mp hbody
    obtain ⟨dims, d, rfl, hmid, hdims⟩ := parseSilTypeTail_dims hty (by rw [hparen.1]; nofun)
    have hnodate : t ≠ [.ident "date"] := by
      rintro rfl
      exact hdate ⟨rfl, hparen.1⟩
    cases hdims with
    | cons =>
      rw [hmid] at hparen
      cases hparen.1
    | nil =>
      obtain ⟨cast, hcast, hcall⟩ := bind_eq_ok.mp hnext
      cases cast with
      | some hex =>
        cases hcall
        exact hhex .nil hmid (fun heq => absurd ((List.append_nil t).symm.trans heq) hnodate) hcast
      | none =>
        obtain ⟨⟨args, mid''⟩, hargs, hresult⟩ := bind_eq_ok.mp hcall
        cases hresult
        obtain ⟨ts, rfl, hitems⟩ := ih.args hargs
        refine ⟨_, ?_, .call le_rfl hpath hfirst hnodate hitems fun htakes raw digits harg => ?_⟩
        · rw [hmid]
          simp
        · have hnone := parseHexCast_none hcast htakes
          rw [hexArgument_cons harg] at hnone
          cases hnone
  · obtain ⟨ts, fields, rfl, hfields, rfl⟩ := ih.braced hbody
    exact ⟨_, by simp, .structLiteral le_rfl hpath hfirst hfields⟩
  · cases hbody
    exact ⟨t, rfl, .identifier le_rfl hpath hfirst⟩

theorem parseTypedArray_ok (ih : SoundAt crates fuel) {ty : SilTypeRef} {expr : Expr}
    (h : parseTypedArray crates none (fuel + 1) ty tokens = .ok (expr, rest)) :
    ∃ ts values, tokens = .symbol '{' :: ts ++ .symbol '}' :: rest ∧
      Derives crates (.items values) ts ∧ arrayOf ty values = some expr := by
  rw [parseTypedArray] at h
  obtain ⟨mid, hopen, h⟩ := bind_eq_ok.mp h
  obtain ⟨⟨values, mid'⟩, hitems, h⟩ := bind_eq_ok.mp h
  obtain ⟨mid'', hclose, hdims⟩ := bind_eq_ok.mp h
  obtain ⟨ts, rfl, hderives⟩ := ih.items hitems
  obtain rfl := expectSymbol_eq_ok.mp hopen
  obtain rfl := expectSymbol_eq_ok.mp hclose
  have hresult : arrayOf ty values = some expr ∧ mid'' = rest := by
    unfold arrayOf
    cases hdim : ty.arrayDims.getLast? with
    | none =>
      rw [hdim] at hdims
      cases hdims
    | some dim =>
      rw [hdim] at hdims
      cases dim with
      | fixed expected =>
        by_cases hlen : expected = values.length
        · cases (if_neg (not_not.mpr hlen)).symm.trans hdims
          exact ⟨if_pos hlen, rfl⟩
        · cases (if_pos hlen).symm.trans hdims
      | dynamic | inferred | constant _ =>
        cases hdims
        exact ⟨rfl, rfl⟩
  obtain ⟨harray, rfl⟩ := hresult
  exact ⟨ts, values, rfl, hderives, harray⟩

theorem parseBracedLiteral_ok (ih : SoundAt crates fuel) {name : String} {expr : Expr}
    (h : parseBracedLiteral crates none (fuel + 1) name tokens = .ok (expr, rest)) :
    ∃ ts fields, tokens = .symbol '{' :: ts ++ .symbol '}' :: rest ∧
      Derives crates (.fields fields) ts ∧ expr = .structLiteral name fields := by
  rw [parseBracedLiteral] at h
  obtain ⟨mid, hopen, h⟩ := bind_eq_ok.mp h
  obtain ⟨⟨fields, mid'⟩, hfields, h⟩ := bind_eq_ok.mp h
  obtain ⟨mid'', hclose, h⟩ := bind_eq_ok.mp h
  cases h
  obtain ⟨ts, rfl, hderives⟩ := ih.fields hfields
  obtain rfl := expectSymbol_eq_ok.mp hopen
  obtain rfl := expectSymbol_eq_ok.mp hclose
  exact ⟨ts, fields, rfl, hderives, rfl⟩

theorem parseField_ok (ih : SoundAt crates fuel) {name : String} {expr : Expr}
    (h : parseField crates none (fuel + 1) tokens = .ok ((name, expr), rest)) :
    ∃ ts, Derives crates (.expr 0 expr) ts ∧
      (tokens = .ident name :: .symbol ':' :: ts ++ rest ∨
        (tokens = ts ++ rest ∧ name = "" ∧ ∀ name us, ts ≠ .ident name :: .symbol ':' :: us)) := by
  rw [parseField.eq_def] at h
  simp only at h
  split at h
  case h_1 name' mid =>
    obtain ⟨⟨expr', mid'⟩, hexpr, h⟩ := bind_eq_ok.mp h
    cases h
    obtain ⟨ts, level, rfl, hderives, -, -⟩ := ih.expressionBp (Nat.zero_le 10) hexpr
    exact ⟨ts, hderives.mono (Nat.zero_le level), .inl rfl⟩
  case h_2 hother =>
    obtain ⟨⟨expr', mid⟩, hexpr, h⟩ := bind_eq_ok.mp h
    cases h
    obtain ⟨ts, level, rfl, hderives, -, -⟩ := ih.expressionBp (Nat.zero_le 10) hexpr
    refine ⟨ts, hderives.mono (Nat.zero_le level), .inr ⟨rfl, rfl, fun name us hts => ?_⟩⟩
    exact hother name (us ++ mid) (by rw [hts]; rfl)

theorem parseFields_ok (ih : SoundAt crates fuel) {fields : List (String × Expr)}
    (h : parseFields crates none (fuel + 1) tokens = .ok (fields, rest)) :
    ∃ ts, tokens = ts ++ rest ∧ Derives crates (.fields fields) ts := by
  rw [parseFields] at h
  split_ifs at h with hclose
  · cases h
    exact ⟨[], rfl, .noFields⟩
  · obtain ⟨⟨⟨name, expr⟩, mid⟩, hfield, hmore⟩ := bind_eq_ok.mp h
    obtain ⟨ts, hderives, hcase⟩ := ih.field hfield
    simp only at hmore
    split_ifs at hmore with hcomma
    · obtain ⟨⟨fields', mid'⟩, hfields, hresult⟩ := bind_eq_ok.mp hmore
      cases hresult
      obtain ⟨us, hus, hrest⟩ := ih.fields hfields
      have hmid := eq_cons_symbol hcomma
      rw [hus] at hmid
      obtain rfl | ⟨rfl, rfl, hplain⟩ := hcase
      · exact ⟨_, by rw [hmid]; simp, .consNamed hderives hrest⟩
      · exact ⟨_, by rw [hmid]; simp, .consPositional hderives hplain hrest⟩
    · cases hmore
      obtain rfl | ⟨rfl, rfl, hplain⟩ := hcase
      · exact ⟨_, rfl, .named hderives⟩
      · exact ⟨_, rfl, .positional hderives hplain⟩

theorem parseItems_ok (ih : SoundAt crates fuel) {stop : Char} {exprs : List Expr}
    (h : parseItems crates none (fuel + 1) stop tokens = .ok (exprs, rest)) :
    ∃ ts, tokens = ts ++ rest ∧ Derives crates (.items exprs) ts := by
  rw [parseItems] at h
  split_ifs at h with hclose
  · cases h
    exact ⟨[], rfl, .noItems⟩
  · obtain ⟨⟨expr, mid⟩, hitem, hmore⟩ := bind_eq_ok.mp h
    obtain ⟨ts, level, rfl, hderives, -, -⟩ := ih.expressionBp (Nat.zero_le 10) hitem
    replace hderives := hderives.mono (Nat.zero_le level)
    simp only at hmore
    split_ifs at hmore with hcomma
    · obtain ⟨⟨exprs', mid'⟩, hitems, hresult⟩ := bind_eq_ok.mp hmore
      cases hresult
      obtain ⟨us, hus, hrest⟩ := ih.items hitems
      have hmid := eq_cons_symbol hcomma
      rw [hus] at hmid
      exact ⟨_, by rw [hmid]; simp, .consItem hderives hrest⟩
    · cases hmore
      exact ⟨ts, rfl, .item hderives⟩

theorem parseExpressionArgs_ok (ih : SoundAt crates fuel) {exprs : List Expr}
    (h : parseExpressionArgs crates none (fuel + 1) tokens = .ok (exprs, rest)) :
    ∃ ts, tokens = .symbol '(' :: ts ++ .symbol ')' :: rest ∧ Derives crates (.items exprs) ts := by
  rw [parseExpressionArgs] at h
  obtain ⟨mid, hopen, h⟩ := bind_eq_ok.mp h
  obtain ⟨⟨exprs', mid'⟩, hitems, h⟩ := bind_eq_ok.mp h
  obtain ⟨mid'', hclose, h⟩ := bind_eq_ok.mp h
  cases h
  obtain ⟨ts, rfl, hderives⟩ := ih.items hitems
  obtain rfl := expectSymbol_eq_ok.mp hopen
  obtain rfl := expectSymbol_eq_ok.mp hclose
  exact ⟨ts, rfl, hderives⟩

theorem parsePostfix_ok (ih : SoundAt crates fuel) {level : Nat} {ts : Tokens}
    {source expr : Expr} (hsource : Derives crates (.expr level source) ts)
    (hcontinues : Continues level tokens) (hcheck : checkExpressionPostfix tokens = true)
    (h : parsePostfix crates none (fuel + 1) source tokens = .ok (expr, rest)) :
    ∃ us level', us ≠ [] ∧ tokens = us ++ rest ∧ Derives crates (.expr level' expr) (ts ++ us) ∧
      11 ≤ level' ∧ Continues level' rest := by
  rw [parsePostfix] at h
  split_ifs at h with hindex has
  · obtain ⟨⟨index, mid⟩, hinner, h⟩ := bind_eq_ok.mp h
    obtain ⟨mid', hclose, h⟩ := bind_eq_ok.mp h
    cases h
    obtain ⟨us, level', hus, hderives, -, -⟩ := ih.expressionBp (Nat.zero_le 10) hinner
    refine ⟨.symbol '[' :: us ++ [.symbol ']'], 12, nofun, ?_, ?_, by decide, continues_closed⟩
    · rw [eq_cons_symbol hindex, hus, expectSymbol_eq_ok.mp hclose]
      simp
    · rw [← List.append_assoc]
      exact .index le_rfl (hsource.mono (hcontinues.index hindex)) (hderives.mono (Nat.zero_le level'))
  · obtain ⟨⟨ty, mid⟩, hty, h⟩ := bind_eq_ok.mp h
    cases h
    obtain ⟨hstop, t, ht, htype⟩ := parseSilType_ok hty
    refine ⟨.ident "as" :: t, 11, nofun, ?_, ?_, le_rfl, continues_cast hstop⟩
    · rw [eq_cons_ident has, ht]
      rfl
    · exact .cast le_rfl (hsource.mono (hcontinues.member (.inr has))) htype
  · obtain ⟨mid, hdot, hbody⟩ := bind_eq_ok.mp h
    obtain rfl := expectSymbol_eq_ok.mp hdot
    replace hsource := hsource.mono (hcontinues.member (.inl rfl))
    have hmember : ∀ {field : String} {token : TokenKind}, token = .ident field ∨ token = .number field →
        current mid = token → parseMember crates none fuel source field (advance mid) = .ok (expr, rest) →
          ∃ us level', us ≠ [] ∧ .symbol '.' :: mid = us ++ rest ∧
            Derives crates (.expr level' expr) (ts ++ us) ∧ 11 ≤ level' ∧ Continues level' rest := by
      intro field token htoken hcurrent hparse
      obtain ⟨us, hus, hderives⟩ := ih.member hsource htoken hparse
      refine ⟨.symbol '.' :: token :: us, 12, nofun, ?_, hderives, by decide, continues_closed⟩
      rw [eq_cons_of_current hcurrent (by obtain rfl | rfl := htoken <;> nofun), hus]
      rfl
    split at hbody
    case h_1 field hcurrent => exact hmember (.inl rfl) hcurrent hbody
    case h_2 field hcurrent => exact hmember (.inr rfl) hcurrent hbody
    case h_3 => cases hbody

theorem parseMember_ok (ih : SoundAt crates fuel) {ts : Tokens} {source expr : Expr}
    {field : String} {token : TokenKind} (hsource : Derives crates (.expr 11 source) ts)
    (htoken : token = .ident field ∨ token = .number field)
    (h : parseMember crates none (fuel + 1) source field tokens = .ok (expr, rest)) :
    ∃ us, tokens = us ++ rest ∧
      Derives crates (.expr 12 expr) (ts ++ .symbol '.' :: token :: us) := by
  rw [parseMember] at h
  split at h
  case h_1 part hpart =>
    obtain ⟨part', hok, h⟩ := bind_eq_ok.mp h
    cases h
    rw [hok] at hpart
    exact ⟨[], rfl, .part le_rfl hsource htoken hpart⟩
  case h_2 hpart =>
    split_ifs at h with hlength hargs
    · cases h
      obtain rfl := hlength.1
      exact ⟨[], rfl, .length le_rfl hsource htoken hpart⟩
    · obtain ⟨⟨args, mid⟩, hargs', h⟩ := bind_eq_ok.mp h
      obtain ⟨expr', hmethod, h⟩ := bind_eq_ok.mp h
      cases h
      obtain ⟨us, rfl, hitems⟩ := ih.args hargs'
      refine ⟨.symbol '(' :: us ++ [.symbol ')'], by simp, ?_⟩
      have hderives : Derives crates (.expr 12 expr)
          (ts ++ .symbol '.' :: token :: .symbol '(' :: us ++ [.symbol ')']) :=
        .method le_rfl hsource htoken hpart hitems hmethod
      rwa [List.append_assoc] at hderives
    · obtain ⟨expr', hmember, h⟩ := bind_eq_ok.mp h
      cases h
      refine ⟨[], rfl, .member le_rfl hsource htoken hpart (fun hname => ?_) hmember⟩
      exact hlength ⟨hname, fun hopen => hargs ⟨hopen, Bool.false_ne_true⟩⟩

/-- **Every function of the parser is sound**, with every fuel. -/
theorem soundAt : ∀ fuel, SoundAt crates fuel
  | 0 => by constructor <;> intros <;> contradiction
  | fuel + 1 =>
    have ih := soundAt fuel
    { expressionBp := fun hbp h => parseExpressionBp_ok ih hbp h
      operators := fun hbp hleft hlevel hcontinues h => parseOperators_ok ih hbp hleft hlevel hcontinues h
      head := fun h => parsePrefix_ok ih h
      name := fun hreserved hdate h => parseNameExpression_ok ih hreserved hdate h
      typedArray := fun h => parseTypedArray_ok ih h
      braced := fun h => parseBracedLiteral_ok ih h
      fields := fun h => parseFields_ok ih h
      field := fun h => parseField_ok ih h
      items := fun h => parseItems_ok ih h
      args := fun h => parseExpressionArgs_ok ih h
      suffix := fun hsource hcontinues hcheck h => parsePostfix_ok ih hsource hcontinues hcheck h
      member := fun hsource htoken h => parseMember_ok ih hsource htoken h }

/-- what is read at the start of an expression derives -/
theorem parseExpression_sound {expr : Expr} (h : parseExpression crates none tokens = .ok (expr, rest)) :
    ∃ ts, tokens = ts ++ rest ∧ Derives crates (.expr 0 expr) ts := by
  obtain ⟨ts, level, htokens, hderives, -, -⟩ := (soundAt _).expressionBp (Nat.zero_le 10) h
  exact ⟨ts, htokens, hderives.mono (Nat.zero_le level)⟩

end

end Argent.Syntax.Expression
