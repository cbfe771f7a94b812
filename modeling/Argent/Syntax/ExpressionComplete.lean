import Argent.Syntax.ExpressionTotal
import Mathlib.Data.List.Chain

/-!
# What is derived, the parser of expressions reads

A text that derives at a level is read in front of everything that cannot go on with it at that level.
The parser looks ahead in two places only: brackets behind a name may belong to a type, and so may the
sign behind `actor_type`.  Where a stream leaves no doubt about these, the parser accepts what the
grammar derives and nothing else, so that the grammar names one tree at most.

* `Clean`                    streams without the two doubts;
* `Follow`                   what may stand behind a phrase of a level;
* `Completes`, `completes`   a phrase is read in front of that;
* `parseExpression_iff`      **the parser decides the grammar**.
-/

set_option linter.unusedSectionVars false

namespace Argent.Syntax.Expression
open Argent.Fallible Argent.Syntax

/-! ## streams -/

/-- dimensions with a literal or a call behind -/
def TypeSuffix (tokens : Tokens) : Prop :=
  ∃ dims ts tail, DimsText dims ts ∧ tokens = ts ++ tail ∧
    (current tail = .symbol '{' ∨ current tail = .symbol '(')

structure Clean (tokens : Tokens) : Prop where
  /-- no sign behind `actor_type` -/
  handle : ∀ before first h rest, tokens = before ++ h ++ rest → Path first "actor_type" h →
    current rest ≠ .symbol '<'
  /-- brackets behind a name that a literal or a call seems to follow are dimensions -/
  suffix : ∀ before name rest, tokens = before ++ .ident name :: rest → current rest = .symbol '[' →
    scanSuffix false rest = true → TypeSuffix rest

structure Follow (level : Nat) (rest : Tokens) : Prop extends Continues level rest where
  notType : ¬ TypeSuffix rest
  colon : current rest ≠ .symbol ':'
  unit : unitAfter (current rest) = none

section
variable {tokens rest ts us : Tokens} {level low : Nat}

theorem Clean.right (h : Clean (ts ++ us)) : Clean us where
  handle before first head rest heq := by
    refine h.handle (ts ++ before) first head rest ?_
    rw [heq, List.append_assoc, List.append_assoc, List.append_assoc]
  suffix before name rest heq := by
    refine h.suffix (ts ++ before) name rest ?_
    rw [heq, List.append_assoc]

theorem Continues.mono (h : Continues low rest) (hle : low ≤ level) : Continues level rest :=
  ⟨fun hmember => Nat.le_trans (h.member hmember) hle, fun hindex => Nat.le_trans (h.index hindex) hle,
    fun op bp width hop => Nat.le_trans (h.operator op bp width hop) hle⟩

theorem Follow.mono (h : Follow low rest) (hle : low ≤ level) : Follow level rest :=
  ⟨h.toContinues.mono hle, h.notType, h.colon, h.unit⟩

theorem Follow.paren (h : Follow level rest) : current rest ≠ .symbol '(' :=
  fun hparen => h.notType ⟨[], [], rest, .nil, rfl, .inr hparen⟩

theorem Follow.brace (h : Follow level rest) : current rest ≠ .symbol '{' :=
  fun hbrace => h.notType ⟨[], [], rest, .nil, rfl, .inl hbrace⟩

theorem not_typeSuffix (hbracket : current rest ≠ .symbol '[') (hbrace : current rest ≠ .symbol '{')
    (hparen : current rest ≠ .symbol '(') : ¬ TypeSuffix rest := by
  rintro ⟨dims, ts, tail, hdims, rfl, htail⟩
  cases hdims with
  | nil => exact htail.elim hbrace hparen
  | cons => exact hbracket rfl

/-- the brackets of an index are dimensions only if what follows them goes on like that -/
theorem typeSuffix_of_index (hnested : Nested us)
    (h : TypeSuffix (.symbol '[' :: us ++ .symbol ']' :: rest)) : TypeSuffix rest := by
  obtain ⟨dims, ts, tail, hdims, heq, htail⟩ := h
  cases hdims with
  | nil =>
    rw [List.nil_append] at heq
    rw [← heq] at htail
    obtain htail | htail := htail <;> cases htail
  | @cons dim dims t ds hdim hdims =>
    have hpair : Brackets (.symbol '[') (.symbol ']') := .inr (.inl ⟨rfl, rfl⟩)
    rw [List.append_assoc, List.cons_append, List.cons_append, List.cons_append] at heq
    obtain ⟨-, hrest⟩ := WellNested.close_unique (by decide) (hnested _ _ hpair)
      (hdim.nested _ _ hpair) (List.cons.inj heq).2
    exact ⟨dims, ds, tail, hdims, hrest, htail⟩

theorem follow_closer {symbol : Char} (h : symbol ∈ [')', ']', '}', ',']) :
    Follow level (.symbol symbol :: rest) := by
  simp only [List.mem_cons, List.not_mem_nil, or_false] at h
  obtain rfl | rfl | rfl | rfl := h
  all_goals
    refine ⟨⟨by simp [current], by simp [current], fun op bp width hop => ?_⟩, not_typeSuffix
      (by simp [current]) (by simp [current]) (by simp [current]), by simp [current], rfl⟩
    · simp [binaryOperator, current] at hop

/-! ## names and types -/

theorem Path.ident {first name : String} (h : Path first name ts) : ∃ tail, ts = .ident first :: tail := by
  cases h
  exact ⟨_, rfl⟩

theorem Path.last {first name : String} (h : Path first name ts) :
    ∃ before last, ts = before ++ [.ident last] := by
  obtain ⟨segments⟩ := h
  rcases List.eq_nil_or_concat segments with rfl | ⟨before, last, rfl⟩
  · exact ⟨[], first, rfl⟩
  · refine ⟨.ident first :: pathTail before ++ [.symbol ':', .symbol ':'], last, ?_⟩
    simp [pathTail]

theorem qualifiedTail_append (hcolon : current rest ≠ .symbol ':') : ∀ {segments : List String}
    {first : String}, qualifiedTail first (pathTail segments ++ rest) =
      .ok (pathName first segments, rest)
  | [], first => by
    show qualifiedTail first rest = .ok (first, rest)
    unfold qualifiedTail
    split
    · exact absurd rfl hcolon
    · exact absurd rfl hcolon
    · exact absurd rfl hcolon
    · rfl
  | segment :: segments, first => by
    show qualifiedTail first (.symbol ':' :: .symbol ':' :: .ident segment ::
      (pathTail segments ++ rest)) = _
    rw [qualifiedTail, qualifiedTail_append hcolon]
    rfl

theorem expectAnyQualifiedIdent_append {first name : String} (h : Path first name ts)
    (hcolon : current rest ≠ .symbol ':') : expectAnyQualifiedIdent (ts ++ rest) = .ok (name, rest) := by
  obtain ⟨segments⟩ := h
  exact qualifiedTail_append hcolon

theorem parseDim_append {dim : ArrayDim} (h : DimText dim ts) :
    parseDim (ts ++ .symbol ']' :: rest) = .ok (dim, .symbol ']' :: rest) := by
  cases h with
  | dynamic => rfl
  | inferred => rfl
  | @fixed raw len hlen =>
    unfold parseDim
    dsimp only [current, List.singleton_append]
    rw [hlen]
    rfl
  | @constant first name ts hpath hfirst =>
    have hname : expectAnyQualifiedIdent (ts ++ .symbol ']' :: rest) = .ok (name, .symbol ']' :: rest) :=
      expectAnyQualifiedIdent_append hpath (by simp [current])
    obtain ⟨tail, rfl⟩ := hpath.ident
    show (if first = "_" then _ else _) = _
    rw [if_neg hfirst, hname]
    rfl

theorem parseDims_append {dims : List ArrayDim} (h : DimsText dims ts)
    (hbracket : current rest ≠ .symbol '[') : ∀ {fuel : Nat}, (ts ++ rest).length < fuel →
      parseDims fuel (ts ++ rest) = .ok (dims, rest) := by
  induction h with
  | nil =>
    intro fuel hfuel
    obtain ⟨fuel, rfl⟩ := Nat.exists_eq_add_of_lt (Nat.zero_lt_of_lt hfuel)
    rw [Nat.zero_add, parseDims]
    exact if_neg hbracket
  | @cons dim dims t ds hdim hdims ih =>
    intro fuel hfuel
    obtain ⟨fuel, rfl⟩ := Nat.exists_eq_add_of_lt (Nat.zero_lt_of_lt hfuel)
    have hlength : (ds ++ rest).length < fuel := by
      simp only [List.length_append, List.length_cons] at hfuel ⊢
      omega
    have hopen : current (.symbol '[' :: (t ++ .symbol ']' :: (ds ++ rest))) = .symbol '[' := rfl
    rw [Nat.zero_add, parseDims, List.append_assoc, List.cons_append, List.cons_append, if_pos hopen]
    exact bind_eq_ok.mpr ⟨_, parseDim_append hdim, bind_eq_ok.mpr ⟨_, expectSymbol_eq_ok.mpr rfl,
      bind_eq_ok.mpr ⟨_, ih hlength, rfl⟩⟩⟩

theorem parseSilTypeTail_append {name : String} {dims : List ArrayDim} (h : DimsText dims ts)
    (hbracket : current rest ≠ .symbol '[')
    (hless : name = "actor_type" → current (ts ++ rest) ≠ .symbol '<') :
    parseSilTypeTail name (ts ++ rest) = .ok (⟨typeBase name, dims⟩, rest) := by
  unfold parseSilTypeTail skipActorState
  rw [if_neg fun hhandle => hless hhandle.1 hhandle.2]
  show (parseDims _ (ts ++ rest) >>= _) = _
  rw [parseDims_append h hbracket (Nat.lt_succ_self _)]
  rfl

theorem parseSilType_append {ty : SilTypeRef} (h : TypeText ty ts) (hclean : Clean (ts ++ rest))
    (hbracket : current rest ≠ .symbol '[') (hcolon : current rest ≠ .symbol ':') :
    parseSilType (ts ++ rest) = .ok (ty, rest) := by
  cases h with
  | @handle head first state dims h t ds hhead hpath hdims =>
    rw [List.append_assoc, List.append_assoc] at hclean
    exact absurd rfl (hclean.handle [] head h _ rfl hhead)
  | @plain first name dims t ds hpath hdims =>
    have hbehind : current (ds ++ rest) ≠ .symbol ':' := by
      cases hdims with
      | nil => exact hcolon
      | cons => nofun
    rw [List.append_assoc] at hclean ⊢
    unfold parseSilType
    rw [expectAnyQualifiedIdent_append hpath hbehind]
    show parseSilTypeTail name (ds ++ rest) = _
    refine parseSilTypeTail_append hdims hbracket ?_
    rintro rfl
    exact hclean.handle [] first t _ rfl hpath

theorem scanSuffix_dim {dim : ArrayDim} (h : DimText dim ts) :
    scanSuffix true (ts ++ .symbol ']' :: rest) = scanSuffix false rest := by
  cases h with
  | dynamic | inferred | fixed => rfl
  | constant hpath =>
    obtain ⟨segments⟩ := hpath
    show scanSuffix true (pathTail segments ++ .symbol ']' :: rest) = _
    induction segments with
    | nil => rfl
    | cons segment segments ih => exact ih

theorem scanSuffix_append {dims : List ArrayDim} (h : DimsText dims ts) :
    scanSuffix false (ts ++ rest) = scanSuffix false rest := by
  induction h with
  | nil => rfl
  | @cons dim dims t ds hdim hdims ih =>
    rw [List.append_assoc, List.cons_append, List.cons_append, scanSuffix, scanSuffix_dim hdim, ih]

/-! ## hexadecimal numbers -/

variable {crates : ExprCrates} {ty : SilTypeRef} {values : List Expr}

/-- arguments that are no hexadecimal number are not read as bytes -/
theorem parseHexCast_of_items (hnested : Nested us)
    (hhex : TakesHex crates ty →
      ∀ raw digits, ¬ HexArgument (.symbol '(' :: us ++ [.symbol ')']) raw digits) :
    parseHexCast crates ty (.symbol '(' :: us ++ .symbol ')' :: rest) = .ok none := by
  unfold parseHexCast
  cases harg : hexArgument (.symbol '(' :: us ++ .symbol ')' :: rest) with
  | none => rfl
  | some found =>
    obtain ⟨raw, digits, rest'⟩ := found
    obtain ⟨args, heq, hargs⟩ := hexArgument_ok harg
    have hsame : HexArgument (.symbol '(' :: us ++ [.symbol ')']) raw digits := by
      cases hargs with
      | @mk k _ _ comma hdigits hcomma =>
        have hpair : Brackets (.symbol '(') (.symbol ')') := .inl ⟨rfl, rfl⟩
        have hinner : Nested (hexText k raw ++ comma) := by
          refine hexText_nested.append ?_
          obtain rfl | rfl := hcomma
          · exact Nested.nil
          · exact Nested.single (plain_symbol (by decide))
        simp only [List.cons_append, List.append_assoc, List.nil_append] at heq
        have hcons := (List.cons.inj heq).2
        rw [← List.append_assoc] at hcons
        obtain ⟨rfl, -⟩ := WellNested.close_unique (by decide) (hnested _ _ hpair)
          (hinner _ _ hpair) hcons
        rw [← List.cons_append]
        exact .mk hdigits hcomma
    simp only
    rw [if_neg fun hbytes => hhex (.inl hbytes) raw digits hsame]
    cases hlen : crates.fixedByteSequenceLen ty.base with
    | none => rfl
    | some len => exact absurd hsame (hhex (.inr ⟨len, hlen⟩) raw digits)

theorem parseHexCast_array {dim : ArrayDim} {raw : String} {digits : List Char} {expr : Expr}
    (harg : HexArgument us raw digits) (hvalues : hexBytes raw digits = .ok values)
    (harray : arrayOf ⟨.byte, [dim]⟩ values = some expr) :
    parseHexCast crates ⟨.byte, [dim]⟩ (us ++ rest) = .ok (some (expr, rest)) := by
  unfold parseHexCast
  rw [hexArgument_of harg]
  simp only
  rw [if_pos ⟨trivial, rfl⟩, hvalues]
  unfold arrayOf at harray
  cases dim with
  | fixed expected =>
    change (if expected = values.length then _ else _) = _ at harray
    split_ifs at harray with hlen
    cases harray
    show (if expected ≠ values.length then _ else _) = _
    rw [if_neg (not_not.mpr hlen)]
    rfl
  | inferred | dynamic | constant name =>
    cases harray
    rfl

theorem parseHexCast_call {raw : String} {digits : List Char}
    (harg : HexArgument us raw digits) (hvalues : hexBytes raw digits = .ok values)
    (hbytes : ¬ (ty.base = .byte ∧ ty.arrayDims.length = 1))
    (hlen : crates.fixedByteSequenceLen ty.base = some values.length) :
    parseHexCast crates ty (us ++ rest) = .ok (some (.call (crates.typeName ty)
      [.array ⟨.byte, [.fixed values.length]⟩ values], rest)) := by
  unfold parseHexCast
  rw [hexArgument_of harg]
  simp only
  rw [if_neg hbytes, hlen]
  show (hexBytes raw digits >>= _) = _
  rw [hvalues]
  show (if values.length ≠ values.length then _ else _) = _
  rw [if_neg (not_not.mpr rfl)]
  rfl

end

/-! ## one step of every rule -/

/-- the parser reads a phrase in front of what may follow it: an expression up to the loop that goes on
behind it, the lists up to the symbol that closes them -/
def Completes (crates : ExprCrates) : Phrase → Tokens → Prop
  | .expr level expr, ts => ∃ steps ≤ ts.length, ∀ {fuel minBp : Nat} {rest : Tokens},
    5 * ts.length + 3 ≤ fuel → minBp ≤ level → minBp ≤ 10 → Clean (ts ++ rest) → Follow level rest →
      parseExpressionBp crates none fuel minBp (ts ++ rest) =
        parseOperators crates none (fuel - steps) minBp expr rest
  | .items exprs, ts => ∀ {fuel : Nat} {stop : Char} {rest : Tokens}, 5 * ts.length + 4 ≤ fuel →
    stop = ')' ∨ stop = '}' → Clean (ts ++ .symbol stop :: rest) →
      parseItems crates none fuel stop (ts ++ .symbol stop :: rest) =
        .ok (exprs, .symbol stop :: rest)
  | .fields fields, ts => ∀ {fuel : Nat} {rest : Tokens}, 5 * ts.length + 5 ≤ fuel →
    Clean (ts ++ .symbol '}' :: rest) →
      parseFields crates none fuel (ts ++ .symbol '}' :: rest) = .ok (fields, .symbol '}' :: rest)

section
variable {crates : ExprCrates} {tokens rest t ts us : Tokens} {level low fuel : Nat} {expr : Expr}

theorem exists_succ {n : Nat} (h : n + 1 ≤ fuel) : ∃ k, fuel = k + 1 ∧ n ≤ k :=
  ⟨fuel - 1, by omega, by omega⟩

/-- the loop ends in front of what may follow a phrase that is no operand of a postfix -/
theorem parseOperators_stop {minBp : Nat} (hfollow : Follow low rest) (hlow : low ≤ 10)
    (hstop : ∀ op bp width, binaryOperator rest = some (op, bp, width) → bp < minBp)
    (hfuel : 1 ≤ fuel) : parseOperators crates none fuel minBp expr rest = .ok (expr, rest) := by
  obtain ⟨fuel, rfl, -⟩ := exists_succ hfuel
  have hbehind : checkExpressionPostfix rest = false := by
    refine checkExpressionPostfix_eq_false.mpr ⟨fun h => ?_, fun h => ?_, fun h => ?_⟩
    · have := hfollow.member (.inl h)
      omega
    · have := hfollow.index h
      omega
    · have := hfollow.member (.inr h)
      omega
  rw [parseOperators, if_neg (show ¬ pastLimit none rest = true from Bool.false_ne_true),
    if_neg fun h => Bool.false_ne_true (hbehind.symm.trans h.2)]
  cases hop : binaryOperator rest with
  | none => rfl
  | some found =>
    obtain ⟨op, bp, width⟩ := found
    exact if_pos (hstop op bp width hop)

theorem Completes.read {minBp : Nat} (h : Completes crates (.expr level expr) ts)
    (hfuel : 5 * ts.length + 3 ≤ fuel) (hbp : minBp ≤ level) (hten : minBp ≤ 10)
    (hclean : Clean (ts ++ rest)) (hfollow : Follow low rest) (hle : low ≤ level) (hlow : low ≤ 10)
    (hstop : ∀ op bp width, binaryOperator rest = some (op, bp, width) → bp < minBp) :
    parseExpressionBp crates none fuel minBp (ts ++ rest) = .ok (expr, rest) := by
  obtain ⟨steps, hsteps, hread⟩ := h
  rw [hread hfuel hbp hten hclean (hfollow.mono hle)]
  exact parseOperators_stop hfollow hlow hstop (by omega)

theorem Completes.read_closer {symbol : Char} (h : Completes crates (.expr 0 expr) ts)
    (hfuel : 5 * ts.length + 3 ≤ fuel) (hsymbol : symbol ∈ [')', ']', '}', ','])
    (hclean : Clean (ts ++ .symbol symbol :: rest)) :
    parseExpressionBp crates none fuel 0 (ts ++ .symbol symbol :: rest) =
      .ok (expr, .symbol symbol :: rest) := by
  have hfollow : Follow 0 (.symbol symbol :: rest) := follow_closer hsymbol
  refine h.read hfuel le_rfl (Nat.zero_le 10) hclean hfollow le_rfl (Nat.zero_le 10) ?_
  intro op bp width hop
  have hle := hfollow.operator op bp width hop
  rw [(binaryOperator_some hop).1] at hle
  have := bindingPower_bounds op
  omega

/-- arguments are read to their end -/
theorem Completes.read_args {exprs : List Expr} (h : Completes crates (.items exprs) ts)
    (hfuel : 5 * ts.length + 5 ≤ fuel) (hclean : Clean (ts ++ .symbol ')' :: rest)) :
    parseExpressionArgs crates none fuel (.symbol '(' :: ts ++ .symbol ')' :: rest) =
      .ok (exprs, rest) := by
  obtain ⟨fuel, rfl, hle⟩ := exists_succ hfuel
  rw [parseExpressionArgs]
  exact bind_eq_ok.mpr ⟨_, expectSymbol_eq_ok.mpr rfl, bind_eq_ok.mpr ⟨_, h hle (.inl rfl) hclean,
    bind_eq_ok.mpr ⟨_, expectSymbol_eq_ok.mpr rfl, rfl⟩⟩⟩

/-! ### operators -/

theorem completes_of_prefix (hne : ts ≠ [])
    (h : ∀ {fuel : Nat} {rest : Tokens}, 5 * ts.length + 2 ≤ fuel → Clean (ts ++ rest) →
      Follow level rest → parsePrefix crates none fuel (ts ++ rest) = .ok (expr, rest)) :
    Completes crates (.expr level expr) ts := by
  refine ⟨1, List.length_pos_of_ne_nil hne, fun {fuel minBp rest} hfuel hbp hten hclean hfollow => ?_⟩
  obtain ⟨fuel, rfl, hle⟩ := exists_succ hfuel
  rw [parseExpressionBp, h hle hclean hfollow]
  rfl

theorem exists_operatorText (op : BinaryOp) : ∃ symbol tail,
    operatorText op = .symbol symbol :: tail ∧ symbol ∉ ['{', '(', ':'] := by
  cases op <;> exact ⟨_, _, rfl, by decide⟩

theorem completes_binary {op : BinaryOp} {left right : Expr} (hlevel : level ≤ bindingPower op)
    (hleft : Completes crates (.expr (bindingPower op) left) ts)
    (hright : Completes crates (.expr (bindingPower op + 1) right) us) (hstart : Starter (current us)) :
    Completes crates (.expr level (.binary op left right)) (ts ++ operatorText op ++ us) := by
  obtain ⟨steps, hsteps, hread⟩ := hleft
  have hpower := bindingPower_bounds op
  have htext : 0 < (operatorText op).length := by cases op <;> decide
  refine ⟨steps + 1, ?_, fun {fuel minBp rest} hfuel hbp hten hclean hfollow => ?_⟩
  · rw [List.length_append, List.length_append]
    omega
  rw [List.length_append, List.length_append] at hfuel
  have hop : binaryOperator (operatorText op ++ (us ++ rest)) =
      some (op, bindingPower op, (operatorText op).length) :=
    binaryOperator_text (starter_append hstart)
  have hnone : checkExpressionPostfix (operatorText op ++ (us ++ rest)) = false := by
    cases op <;> rfl
  have hfollow' : Follow (bindingPower op) (operatorText op ++ (us ++ rest)) := by
    obtain ⟨hdot, hbracket, has⟩ := checkExpressionPostfix_eq_false.mp hnone
    refine ⟨⟨fun h => (h.elim hdot has).elim, fun h => (hbracket h).elim, fun op' bp width hop' => ?_⟩,
      not_typeSuffix hbracket ?_ ?_, ?_, ?_⟩
    · rw [hop] at hop'
      cases hop'
      exact le_rfl
    all_goals
      obtain ⟨symbol, tail, htext, hsymbol⟩ := exists_operatorText op
      rw [htext]
      first | rfl | exact fun h => hsymbol (by cases h; decide)
  rw [List.append_assoc, List.append_assoc] at hclean ⊢
  rw [hread (by omega) (Nat.le_trans hbp hlevel) hten hclean hfollow']
  obtain ⟨fuel', hfuel', hle⟩ : ∃ k, fuel - steps = k + 1 ∧ 5 * us.length + 3 ≤ k :=
    exists_succ (by omega)
  have hrest : parseExpressionBp crates none fuel' (bindingPower op + 1) (us ++ rest) =
      .ok (right, rest) := by
    refine hright.read hle le_rfl (by omega) hclean.right.right hfollow (by omega) (by omega) ?_
    intro op' bp width hop'
    have := hfollow.operator op' bp width hop'
    omega
  rw [hfuel', parseOperators, if_neg (show ¬ pastLimit none _ = true from Bool.false_ne_true),
    if_neg fun h => Bool.false_ne_true (hnone.symm.trans h.2), hop]
  simp only
  rw [if_neg (by omega), List.drop_left, hrest, show fuel - (steps + 1) = fuel' by omega]
  rfl

theorem completes_unary {op : UnaryOp} (hlevel : level ≤ 10)
    (h : Completes crates (.expr 10 expr) ts) :
    Completes crates (.expr level (.unary op expr)) (unaryText op :: ts) := by
  refine completes_of_prefix nofun fun {fuel rest} hfuel hclean hfollow => ?_
  obtain ⟨fuel, rfl, -⟩ := exists_succ hfuel
  rw [List.length_cons] at hfuel
  have hread : parseExpressionBp crates none fuel 10 (ts ++ rest) = .ok (expr, rest) := by
    refine h.read (by omega) le_rfl le_rfl (@Clean.right [unaryText op] _ hclean) hfollow hlevel hlevel ?_
    intro op bp width hop
    rw [(binaryOperator_some hop).1]
    have := bindingPower_bounds op
    omega
  rw [List.cons_append, parsePrefix]
  cases op <;> exact bind_eq_ok.mpr ⟨_, hread, rfl⟩

theorem completes_paren (h : Completes crates (.expr 0 expr) ts) :
    Completes crates (.expr level expr) (.symbol '(' :: ts ++ [.symbol ')']) := by
  refine completes_of_prefix nofun fun {fuel rest} hfuel hclean hfollow => ?_
  obtain ⟨fuel, rfl, -⟩ := exists_succ hfuel
  rw [List.append_assoc, List.cons_append] at hclean ⊢
  simp only [List.length_append, List.length_cons, List.length_nil] at hfuel
  rw [parsePrefix]
  exact bind_eq_ok.mpr ⟨_, h.read_closer (by omega) (by decide) (@Clean.right [.symbol '('] _ hclean),
    bind_eq_ok.mpr ⟨_, expectSymbol_eq_ok.mpr rfl, rfl⟩⟩

/-! ### names -/

theorem completes_of_name {first name : String} (hpath : Path first name t) (hfirst : first ∉ reserved)
    (hdate : ∀ {rest : Tokens}, Follow level rest → t = [.ident "date"] →
      current (us ++ rest) ≠ .symbol '(')
    (h : ∀ {fuel : Nat} {rest : Tokens}, 5 * (t ++ us).length + 1 ≤ fuel →
      Clean (t ++ (us ++ rest)) → Follow level rest →
        parseNameExpression crates none fuel (t ++ (us ++ rest)) = .ok (expr, rest)) :
    Completes crates (.expr level expr) (t ++ us) := by
  obtain ⟨tail, htail⟩ := hpath.ident
  refine completes_of_prefix (by rw [htail]; nofun) fun {fuel rest} hfuel hclean hfollow => ?_
  obtain ⟨fuel, rfl, hle⟩ := exists_succ hfuel
  rw [List.append_assoc] at hclean ⊢
  have hname := h hle hclean hfollow
  have hnodate : ¬ (first = "date" ∧
      current (advance (.ident first :: (tail ++ (us ++ rest)))) = .symbol '(') := by
    rintro ⟨rfl, hparen⟩
    obtain ⟨segments⟩ := hpath
    cases segments with
    | nil =>
      obtain rfl := (List.cons.inj htail).2
      exact hdate hfollow rfl hparen
    | cons segment segments =>
      obtain rfl := (List.cons.inj htail).2
      cases hparen
  rw [htail, List.cons_append] at hname ⊢
  rw [parsePrefix]
  have hbool : ¬ (first = "true" ∨ first = "false") := by
    rintro (rfl | rfl) <;> exact hfirst (by decide)
  have hnew : first ≠ "new" := by
    rintro rfl
    exact hfirst (by decide)
  show (if first = "true" ∨ first = "false" then _ else _) = _
  rw [if_neg hbool, if_neg hnew, if_neg hnodate]
  exact hname

theorem completes_identifier {first name : String} (hpath : Path first name ts)
    (hfirst : first ∉ reserved) : Completes crates (.expr level (.identifier name)) ts := by
  obtain ⟨before, last, hlast⟩ := hpath.last
  have hname : Completes crates (.expr level (.identifier name)) (ts ++ []) := by
    refine completes_of_name hpath hfirst (fun hfollow _ => hfollow.paren)
      fun {fuel rest} hfuel hclean hfollow => ?_
    obtain ⟨fuel, rfl, -⟩ := exists_succ hfuel
    rw [List.nil_append] at hclean ⊢
    rw [parseNameExpression]
    refine bind_eq_ok.mpr ⟨_, expectAnyQualifiedIdent_append hpath hfollow.colon, ?_⟩
    -- brackets behind the name are no type
    have hbrackets : ¬ (current rest = .symbol '[' ∧ typeSuffixHasLiteral none rest = true) := by
      rintro ⟨hbracket, hliteral⟩
      rw [hlast, List.append_assoc] at hclean
      exact hfollow.notType (hclean.suffix before last rest rfl hbracket hliteral)
    show (if current rest = .symbol '[' ∧ _ then _ else _) = _
    rw [if_neg hbrackets, if_neg fun h => hfollow.paren h.1, if_neg fun h => hfollow.brace h.1]
    rfl
  rwa [List.append_nil] at hname

theorem parseNameExpression_type {first name : String} {dim : ArrayDim} {dims : List ArrayDim}
    {d : Tokens} (hpath : Path first name t) (hdims : DimsText (dim :: dims) d)
    (hliteral : current rest = .symbol '{' ∨ current rest = .symbol '(') :
    parseNameExpression crates none (fuel + 1) (t ++ (d ++ rest)) =
      if current rest = .symbol '{' then
        parseTypedArray crates none fuel ⟨typeBase name, dim :: dims⟩ rest
      else do
        match ← parseHexCast crates ⟨typeBase name, dim :: dims⟩ rest with
        | some hex => return hex
        | none => do
          let (args, tokens) ← parseExpressionArgs crates none fuel rest
          return (.call (crates.typeName ⟨typeBase name, dim :: dims⟩) args, tokens) := by
  have hscan : scanSuffix false (d ++ rest) = true := by
    rw [scanSuffix_append hdims]
    obtain hliteral | hliteral := hliteral <;> rw [eq_cons_symbol hliteral] <;> rfl
  have hbracket : current rest ≠ .symbol '[' := by
    obtain hliteral | hliteral := hliteral <;> simp [hliteral]
  have hopen : current (d ++ rest) = .symbol '[' := by
    cases hdims
    rfl
  rw [parseNameExpression, expectAnyQualifiedIdent_append hpath (by simp [hopen])]
  show (if current (d ++ rest) = .symbol '[' ∧ scanSuffix false (d ++ rest) = true then _ else _) = _
  rw [if_pos ⟨hopen, hscan⟩, parseSilTypeTail_append hdims hbracket fun _ => by simp [hopen]]
  rfl

theorem parseNameExpression_call {first name : String} (hpath : Path first name t)
    (hopen : current rest = .symbol '(') :
    parseNameExpression crates none (fuel + 1) (t ++ rest) = do
      match ← parseHexCast crates ⟨typeBase name, []⟩ rest with
      | some hex => return hex
      | none => do
        let (args, tokens) ← parseExpressionArgs crates none fuel rest
        return (.call name args, tokens) := by
  have hbracket : ¬ (current rest = .symbol '[' ∧ typeSuffixHasLiteral none rest = true) := by
    simp [hopen]
  have hparen : current rest = .symbol '(' ∧ ¬ atLimit none rest = true := ⟨hopen, Bool.false_ne_true⟩
  rw [parseNameExpression, expectAnyQualifiedIdent_append hpath (by simp [hopen])]
  show (if current rest = .symbol '[' ∧ _ then _ else _) = _
  rw [if_neg hbracket, if_pos hparen]
  have htype : parseSilTypeTail name ([] ++ rest) = .ok (⟨typeBase name, []⟩, rest) :=
    parseSilTypeTail_append .nil (by simp [hopen]) fun _ => by simp [hopen]
  rw [List.nil_append] at htype
  rw [htype]
  rfl

theorem completes_call {first name : String} {args : List Expr} (hpath : Path first name t)
    (hfirst : first ∉ reserved) (hdate : t ≠ [.ident "date"])
    (h : Completes crates (.items args) ts) (hnested : Nested ts)
    (hhex : TakesHex crates ⟨typeBase name, []⟩ →
      ∀ raw digits, ¬ HexArgument (.symbol '(' :: ts ++ [.symbol ')']) raw digits) :
    Completes crates (.expr level (.call name args)) (t ++ .symbol '(' :: ts ++ [.symbol ')']) := by
  rw [List.append_assoc]
  refine completes_of_name hpath hfirst (fun _ ht => absurd ht hdate)
    fun {fuel rest} hfuel hclean hfollow => ?_
  obtain ⟨fuel, rfl, -⟩ := exists_succ hfuel
  obtain ⟨_, htail⟩ := hpath.ident
  simp only [htail, List.length_append, List.length_cons, List.length_nil] at hfuel
  rw [List.append_assoc] at hclean ⊢
  rw [parseNameExpression_call hpath rfl]
  refine bind_eq_ok.mpr ⟨none, parseHexCast_of_items hnested hhex, ?_⟩
  exact bind_eq_ok.mpr ⟨_, h.read_args (by omega) (@Clean.right [.symbol '('] _ hclean.right), rfl⟩

theorem completes_typeCall {first name : String} {dim : ArrayDim} {dims : List ArrayDim}
    {args : List Expr} {d : Tokens} (hpath : Path first name t) (hfirst : first ∉ reserved)
    (hdims : DimsText (dim :: dims) d) (h : Completes crates (.items args) ts) (hnested : Nested ts)
    (hhex : TakesHex crates ⟨typeBase name, dim :: dims⟩ →
      ∀ raw digits, ¬ HexArgument (.symbol '(' :: ts ++ [.symbol ')']) raw digits) :
    Completes crates (.expr level (.call (crates.typeName ⟨typeBase name, dim :: dims⟩) args))
      (t ++ d ++ .symbol '(' :: ts ++ [.symbol ')']) := by
  rw [List.append_assoc, List.append_assoc]
  refine completes_of_name hpath hfirst (fun _ _ => by cases hdims; nofun)
    fun {fuel rest} hfuel hclean hfollow => ?_
  obtain ⟨fuel, rfl, -⟩ := exists_succ hfuel
  obtain ⟨_, htail⟩ := hpath.ident
  simp only [htail, List.length_append, List.length_cons, List.length_nil] at hfuel
  rw [List.append_assoc, List.append_assoc] at hclean ⊢
  rw [parseNameExpression_type hpath hdims (.inr rfl), if_neg nofun]
  refine bind_eq_ok.mpr ⟨none, parseHexCast_of_items hnested hhex, ?_⟩
  exact bind_eq_ok.mpr ⟨_, h.read_args (by omega) (@Clean.right [.symbol '('] _ hclean.right.right),
    rfl⟩

theorem HexArgument.opens {raw : String} {digits : List Char} (h : HexArgument us raw digits) :
    current (us ++ rest) = .symbol '(' := by
  cases h
  rfl

theorem completes_hexArray {first name raw : String} {dim : ArrayDim} {digits : List Char}
    {values : List Expr} {d : Tokens} (hpath : Path first name t) (hfirst : first ∉ reserved)
    (hdims : DimsText [dim] d) (hbase : typeBase name = .byte) (harg : HexArgument ts raw digits)
    (hvalues : hexBytes raw digits = .ok values) (harray : arrayOf ⟨.byte, [dim]⟩ values = some expr) :
    Completes crates (.expr level expr) (t ++ d ++ ts) := by
  rw [List.append_assoc]
  refine completes_of_name hpath hfirst (fun _ _ => by cases hdims; nofun)
    fun {fuel rest} hfuel hclean hfollow => ?_
  obtain ⟨fuel, rfl, -⟩ := exists_succ hfuel
  rw [List.append_assoc, parseNameExpression_type hpath hdims (.inr harg.opens), if_neg
    (by rw [harg.opens]; nofun), hbase]
  exact bind_eq_ok.mpr ⟨_, parseHexCast_array harg hvalues harray, rfl⟩

theorem completes_hexCall {first name raw : String} {dims : List ArrayDim} {digits : List Char}
    {values : List Expr} {d : Tokens} (hpath : Path first name t) (hfirst : first ∉ reserved)
    (hdate : t ++ d ≠ [.ident "date"]) (hdims : DimsText dims d)
    (hbytes : ¬ (typeBase name = .byte ∧ dims.length = 1)) (harg : HexArgument ts raw digits)
    (hvalues : hexBytes raw digits = .ok values)
    (hlen : crates.fixedByteSequenceLen (typeBase name) = some values.length) :
    Completes crates (.expr level (.call (crates.typeName ⟨typeBase name, dims⟩)
      [.array ⟨.byte, [.fixed values.length]⟩ values])) (t ++ d ++ ts) := by
  have hcast : ∀ rest : Tokens, parseHexCast crates ⟨typeBase name, dims⟩ (ts ++ rest) =
      .ok (some (.call (crates.typeName ⟨typeBase name, dims⟩)
        [.array ⟨.byte, [.fixed values.length]⟩ values], rest)) :=
    fun _ => parseHexCast_call harg hvalues hbytes hlen
  rw [List.append_assoc]
  cases hdims with
  | nil =>
    refine completes_of_name hpath hfirst
      (fun _ ht => absurd ((List.append_nil t).trans ht) hdate) fun {fuel rest} hfuel hclean hfollow => ?_
    obtain ⟨fuel, rfl, -⟩ := exists_succ hfuel
    rw [List.nil_append, parseNameExpression_call hpath harg.opens]
    exact bind_eq_ok.mpr ⟨_, hcast rest, rfl⟩
  | @cons dim dims d ds hdim hdims =>
    replace hdims := DimsText.cons hdim hdims
    refine completes_of_name hpath hfirst (fun _ _ => nofun) fun {fuel rest} hfuel hclean hfollow => ?_
    obtain ⟨fuel, rfl, -⟩ := exists_succ hfuel
    rw [List.append_assoc (.symbol '[' :: d ++ .symbol ']' :: ds),
      parseNameExpression_type hpath hdims (.inr harg.opens), if_neg (by rw [harg.opens]; nofun)]
    exact bind_eq_ok.mpr ⟨_, hcast rest, rfl⟩

theorem completes_typedArray {first name : String} {dim : ArrayDim} {dims : List ArrayDim}
    {values : List Expr} {d : Tokens} (hpath : Path first name t) (hfirst : first ∉ reserved)
    (hdims : DimsText (dim :: dims) d) (h : Completes crates (.items values) ts)
    (harray : arrayOf ⟨typeBase name, dim :: dims⟩ values = some expr) :
    Completes crates (.expr level expr) (t ++ d ++ .symbol '{' :: ts ++ [.symbol '}']) := by
  rw [List.append_assoc, List.append_assoc]
  refine completes_of_name hpath hfirst (fun _ _ => by cases hdims; nofun)
    fun {fuel rest} hfuel hclean hfollow => ?_
  obtain ⟨fuel, rfl, -⟩ := exists_succ hfuel
  obtain ⟨_, htail⟩ := hpath.ident
  simp only [htail, List.length_append, List.length_cons, List.length_nil] at hfuel
  rw [List.append_assoc, List.append_assoc] at hclean ⊢
  have hbrace : current (.symbol '{' :: ts ++ ([.symbol '}'] ++ rest)) = .symbol '{' := rfl
  rw [parseNameExpression_type hpath hdims (.inl hbrace), if_pos hbrace]
  obtain ⟨fuel, rfl, hle⟩ : ∃ k, fuel = k + 1 ∧ 5 * ts.length + 4 ≤ k := exists_succ (by omega)
  rw [parseTypedArray]
  refine bind_eq_ok.mpr ⟨_, expectSymbol_eq_ok.mpr rfl, bind_eq_ok.mpr ⟨_,
    h hle (.inr rfl) (@Clean.right [.symbol '{'] _ hclean.right.right),
    bind_eq_ok.mpr ⟨_, expectSymbol_eq_ok.mpr rfl, ?_⟩⟩⟩
  unfold arrayOf at harray
  cases hdim : (SilTypeRef.mk (typeBase name) (dim :: dims)).arrayDims.getLast? with
  | none =>
    rw [hdim] at harray
    cases harray
  | some last =>
    rw [hdim] at harray
    cases last with
    | fixed expected =>
      by_cases hlen : expected = values.length
      · cases (if_pos hlen).symm.trans harray
        exact if_neg (not_not.mpr hlen)
      · cases (if_neg hlen).symm.trans harray
    | dynamic | inferred | constant _ =>
      cases harray
      rfl

theorem parseBracedLiteral_append {fields : List (String × Expr)} {name : String}
    (h : Completes crates (.fields fields) ts) (hfuel : 5 * ts.length + 6 ≤ fuel)
    (hclean : Clean (ts ++ .symbol '}' :: rest)) :
    parseBracedLiteral crates none fuel name (.symbol '{' :: ts ++ .symbol '}' :: rest) =
      .ok (.structLiteral name fields, rest) := by
  obtain ⟨fuel, rfl, hle⟩ := exists_succ hfuel
  rw [parseBracedLiteral]
  exact bind_eq_ok.mpr ⟨_, expectSymbol_eq_ok.mpr rfl, bind_eq_ok.mpr ⟨_, h hle hclean,
    bind_eq_ok.mpr ⟨_, expectSymbol_eq_ok.mpr rfl, rfl⟩⟩⟩

theorem completes_braced {fields : List (String × Expr)} (h : Completes crates (.fields fields) ts) :
    Completes crates (.expr level (.structLiteral "" fields))
      (.symbol '{' :: ts ++ [.symbol '}']) := by
  refine completes_of_prefix nofun fun {fuel rest} hfuel hclean hfollow => ?_
  obtain ⟨fuel, rfl, -⟩ := exists_succ hfuel
  simp only [List.length_append, List.length_cons, List.length_nil] at hfuel
  rw [List.append_assoc] at hclean ⊢
  rw [List.cons_append, parsePrefix]
  exact parseBracedLiteral_append h (by omega) (@Clean.right [.symbol '{'] _ hclean)

theorem completes_structLiteral {first name : String} {fields : List (String × Expr)}
    (hpath : Path first name t) (hfirst : first ∉ reserved)
    (h : Completes crates (.fields fields) ts) :
    Completes crates (.expr level (.structLiteral name fields))
      (t ++ .symbol '{' :: ts ++ [.symbol '}']) := by
  rw [List.append_assoc]
  refine completes_of_name hpath hfirst (by simp [current]) fun {fuel rest} hfuel hclean hfollow => ?_
  obtain ⟨fuel, rfl, -⟩ := exists_succ hfuel
  obtain ⟨_, htail⟩ := hpath.ident
  simp only [htail, List.length_append, List.length_cons, List.length_nil] at hfuel
  rw [List.append_assoc] at hclean ⊢
  rw [parseNameExpression]
  refine bind_eq_ok.mpr ⟨_, expectAnyQualifiedIdent_append hpath (by simp [current]), ?_⟩
  have hother : ∀ symbol ∈ ['[', '('],
      current (.symbol '{' :: (ts ++ ([.symbol '}'] ++ rest))) ≠ .symbol symbol := by
    intro symbol hmem heq
    cases heq
    exact absurd hmem (by decide)
  have hbrace : current (.symbol '{' :: (ts ++ ([.symbol '}'] ++ rest))) = .symbol '{' ∧
      ¬ atLimit none (.symbol '{' :: (ts ++ ([.symbol '}'] ++ rest))) = true :=
    ⟨rfl, Bool.false_ne_true⟩
  refine (if_neg fun h => hother _ (by decide) h.1).trans ((if_neg fun h =>
    hother _ (by decide) h.1).trans ((if_pos hbrace).trans ?_))
  exact parseBracedLiteral_append h (by omega) (@Clean.right [.symbol '{'] _ hclean.right)

theorem completes_new {first name : String} {args : List Expr} (hpath : Path first name t)
    (h : Completes crates (.items args) ts) :
    Completes crates (.expr level (.new name args))
      (.ident "new" :: t ++ .symbol '(' :: ts ++ [.symbol ')']) := by
  refine completes_of_prefix (by simp) fun {fuel rest} hfuel hclean hfollow => ?_
  obtain ⟨fuel, rfl, -⟩ := exists_succ hfuel
  simp only [List.length_append, List.length_cons, List.length_nil] at hfuel
  simp only [List.append_assoc, List.cons_append, List.nil_append] at hclean ⊢
  have hargs := (@Clean.right [.ident "new"] _ hclean).right
  rw [parsePrefix]
  show (if "new" = "true" ∨ "new" = "false" then _ else _) = _
  rw [if_neg (by decide), if_pos rfl]
  refine bind_eq_ok.mpr ⟨_, expectAnyQualifiedIdent_append hpath (by simp [current]), ?_⟩
  exact bind_eq_ok.mpr ⟨_, h.read_args (by omega) (@Clean.right [.symbol '('] _ hargs), rfl⟩

/-! ### literals -/

theorem completes_number {raw : String} {value : Int} (h : numberBeforeUnit raw = .ok value) :
    Completes crates (.expr level (.int value)) [.number raw] := by
  refine completes_of_prefix nofun fun {fuel rest} hfuel hclean hfollow => ?_
  obtain ⟨fuel, rfl, -⟩ := exists_succ hfuel
  rw [List.singleton_append, parsePrefix]
  show parseNumberExpression raw rest = _
  unfold parseNumberExpression
  rw [h]
  simp only
  rw [hfollow.unit]

theorem completes_quantity {raw unit : String} {value scale scaled : Int} {temporal : Bool}
    (h : numberBeforeUnit raw = .ok value) (hunit : unitAfter (.ident unit) = some (scale, temporal))
    (hscaled : checkedMulI64 value scale = some scaled) :
    Completes crates (.expr level (if temporal then .temporal scaled else .int scaled))
      [.number raw, .ident unit] := by
  refine completes_of_prefix nofun fun {fuel rest} hfuel hclean hfollow => ?_
  obtain ⟨fuel, rfl, -⟩ := exists_succ hfuel
  rw [List.cons_append, List.singleton_append, parsePrefix]
  show parseNumberExpression raw (.ident unit :: rest) = _
  unfold parseNumberExpression
  rw [h]
  simp only
  rw [show current (.ident unit :: rest) = .ident unit from rfl, hunit]
  simp only
  rw [hscaled]
  rfl

theorem completes_date {raw : String} {millis : Int} (h : crates.parseDate raw = some millis) :
    Completes crates (.expr level (.dateLiteral millis))
      [.ident "date", .symbol '(', .str raw, .symbol ')'] := by
  refine completes_of_prefix nofun fun {fuel rest} hfuel hclean hfollow => ?_
  obtain ⟨fuel, rfl, -⟩ := exists_succ hfuel
  have hdate : ("date" = "date") ∧ current (advance (.ident "date" :: .symbol '(' :: .str raw ::
      .symbol ')' :: rest)) = .symbol '(' := ⟨rfl, rfl⟩
  rw [show [.ident "date", .symbol '(', .str raw, .symbol ')'] ++ rest =
    (.ident "date" :: .symbol '(' :: .str raw :: .symbol ')' :: rest : Tokens) from rfl, parsePrefix]
  show (if "date" = "true" ∨ "date" = "false" then _ else _) = _
  rw [if_neg (by decide), if_neg (by decide), if_pos hdate]
  refine bind_eq_ok.mpr ⟨_, expectSymbol_eq_ok.mpr rfl, bind_eq_ok.mpr ⟨_, expectString_eq_ok.mpr rfl,
    bind_eq_ok.mpr ⟨_, expectSymbol_eq_ok.mpr rfl, ?_⟩⟩⟩
  rw [h]
  rfl

theorem completes_bool {name : String} (h : name = "true" ∨ name = "false") :
    Completes crates (.expr level (.bool (decide (name = "true")))) [.ident name] := by
  refine completes_of_prefix nofun fun {fuel rest} hfuel hclean hfollow => ?_
  obtain ⟨fuel, rfl, -⟩ := exists_succ hfuel
  rw [List.singleton_append, parsePrefix]
  exact if_pos h

theorem completes_string {value : String} :
    Completes crates (.expr level (.string value)) [.str value] := by
  refine completes_of_prefix nofun fun {fuel rest} hfuel hclean hfollow => ?_
  obtain ⟨fuel, rfl, -⟩ := exists_succ hfuel
  rfl

/-! ### postfixes -/

theorem completes_of_postfix {operand : Nat} {source : Expr}
    (hsource : Completes crates (.expr operand source) ts) (hoperand : 10 ≤ operand) (hne : us ≠ [])
    (hfollow : ∀ {rest : Tokens}, Follow level rest → Follow operand (us ++ rest))
    (hcheck : ∀ {rest : Tokens}, checkExpressionPostfix (us ++ rest) = true)
    (h : ∀ {fuel : Nat} {rest : Tokens}, 5 * us.length + 1 ≤ fuel → Clean (us ++ rest) →
      Follow level rest → parsePostfix crates none fuel source (us ++ rest) = .ok (expr, rest)) :
    Completes crates (.expr level expr) (ts ++ us) := by
  obtain ⟨steps, hsteps, hread⟩ := hsource
  have hpos := List.length_pos_of_ne_nil hne
  refine ⟨steps + 1, ?_, fun {fuel minBp rest} hfuel hbp hten hclean hrest => ?_⟩
  · rw [List.length_append]
    omega
  rw [List.length_append] at hfuel
  rw [List.append_assoc] at hclean ⊢
  rw [hread (by omega) (Nat.le_trans hten hoperand) hten hclean (hfollow hrest)]
  obtain ⟨fuel', hfuel', hle⟩ : ∃ k, fuel - steps = k + 1 ∧ 5 * us.length + 1 ≤ k :=
    exists_succ (by omega)
  rw [hfuel', parseOperators, if_neg (show ¬ pastLimit none _ = true from Bool.false_ne_true),
    if_pos ⟨hten, hcheck⟩, h hle hclean.right hrest, show fuel - (steps + 1) = fuel' by omega]
  rfl

theorem follow_dot : Follow 11 (.symbol '.' :: rest) where
  member _ := le_rfl
  index := nofun
  operator op bp width hop := by simp [binaryOperator, current] at hop
  notType := not_typeSuffix nofun nofun nofun
  colon := nofun
  unit := rfl

theorem follow_as : Follow 11 (.ident "as" :: rest) where
  member _ := le_rfl
  index := nofun
  operator op bp width hop := by simp [binaryOperator, current] at hop
  notType := not_typeSuffix nofun nofun nofun
  colon := nofun
  unit := by
    show unitAfter (.ident "as") = none
    decide

theorem completes_index {source index : Expr}
    (hsource : Completes crates (.expr 12 source) ts) (h : Completes crates (.expr 0 index) us)
    (hnested : Nested us) : Completes crates (.expr level (.arrayIndex source index))
      (ts ++ .symbol '[' :: us ++ [.symbol ']']) := by
  rw [List.append_assoc]
  refine completes_of_postfix hsource (by decide) nofun (fun {rest} hfollow => ?_) (fun {rest} => rfl)
    fun {fuel rest} hfuel hclean hfollow => ?_
  · rw [List.append_assoc]
    refine ⟨continues_closed, fun htype => hfollow.notType (typeSuffix_of_index hnested htype), nofun, rfl⟩
  · obtain ⟨fuel, rfl, -⟩ := exists_succ hfuel
    simp only [List.length_append, List.length_cons, List.length_nil] at hfuel
    rw [List.append_assoc] at hclean ⊢
    rw [parsePostfix]
    refine (if_pos rfl).trans ?_
    exact bind_eq_ok.mpr ⟨_, h.read_closer (by omega) (by decide) (@Clean.right [.symbol '['] _ hclean),
      bind_eq_ok.mpr ⟨_, expectSymbol_eq_ok.mpr rfl, rfl⟩⟩

theorem completes_cast {source : Expr} {ty : SilTypeRef} (hlevel : level ≤ 11)
    (hsource : Completes crates (.expr 11 source) ts) (hty : TypeText ty us) :
    Completes crates (.expr level (.call ("__as_cast_" ++ crates.typeName ty) [source]))
      (ts ++ .ident "as" :: us) := by
  refine completes_of_postfix hsource (by decide) nofun (fun _ => follow_as) (fun {rest} => rfl)
    fun {fuel rest} hfuel hclean hfollow => ?_
  obtain ⟨fuel, rfl, -⟩ := exists_succ hfuel
  have hbracket : current rest ≠ .symbol '[' := fun hopen => by
    have := hfollow.index hopen
    omega
  have hnot : current (.ident "as" :: us ++ rest) ≠ .symbol '[' := nofun
  rw [parsePostfix, if_neg hnot, if_pos (show current (.ident "as" :: us ++ rest) = .ident "as" from rfl)]
  exact bind_eq_ok.mpr ⟨_, parseSilType_append hty (@Clean.right [.ident "as"] _ hclean) hbracket
    hfollow.colon, rfl⟩

theorem completes_dot {source : Expr} {field : String} {token : TokenKind}
    (hsource : Completes crates (.expr 11 source) ts)
    (htoken : token = .ident field ∨ token = .number field)
    (h : ∀ {fuel : Nat} {rest : Tokens}, 5 * us.length + 6 ≤ fuel → Clean (us ++ rest) →
      Follow level rest → parseMember crates none fuel source field (us ++ rest) = .ok (expr, rest)) :
    Completes crates (.expr level expr) (ts ++ .symbol '.' :: token :: us) := by
  refine completes_of_postfix hsource (by decide) nofun (fun _ => follow_dot) (fun {rest} => rfl)
    fun {fuel rest} hfuel hclean hfollow => ?_
  obtain ⟨fuel, rfl, -⟩ := exists_succ hfuel
  simp only [List.length_cons] at hfuel
  have hmember := h (show 5 * us.length + 6 ≤ fuel by omega)
    (@Clean.right [.symbol '.', token] _ hclean) hfollow
  have hindex : current (.symbol '.' :: token :: us ++ rest) ≠ .symbol '[' := nofun
  have has : current (.symbol '.' :: token :: us ++ rest) ≠ .ident "as" := nofun
  rw [parsePostfix, if_neg hindex, if_neg has]
  refine bind_eq_ok.mpr ⟨token :: us ++ rest, expectSymbol_eq_ok.mpr rfl, ?_⟩
  obtain rfl | rfl := htoken <;> exact hmember

theorem completes_part {source : Expr} {field : String} {token : TokenKind}
    (hsource : Completes crates (.expr 11 source) ts)
    (htoken : token = .ident field ∨ token = .number field)
    (hpart : splitPart source field = some (.ok expr)) :
    Completes crates (.expr level expr) (ts ++ [.symbol '.', token]) := by
  refine completes_dot hsource htoken fun {fuel rest} hfuel hclean hfollow => ?_
  obtain ⟨fuel, rfl, -⟩ := exists_succ hfuel
  rw [parseMember, hpart]
  rfl

theorem completes_length {source : Expr} {token : TokenKind}
    (hsource : Completes crates (.expr 11 source) ts)
    (htoken : token = .ident "length" ∨ token = .number "length")
    (hpart : splitPart source "length" = none) :
    Completes crates (.expr level (lengthExpr source)) (ts ++ [.symbol '.', token]) := by
  refine completes_dot hsource htoken fun {fuel rest} hfuel hclean hfollow => ?_
  obtain ⟨fuel, rfl, -⟩ := exists_succ hfuel
  rw [parseMember, hpart]
  exact if_pos ⟨rfl, hfollow.paren⟩

theorem completes_member {source : Expr} {field : String} {token : TokenKind}
    (hsource : Completes crates (.expr 11 source) ts)
    (htoken : token = .ident field ∨ token = .number field) (hpart : splitPart source field = none)
    (hlength : field ≠ "length") (hmember : memberExpr source field = .ok expr) :
    Completes crates (.expr level expr) (ts ++ [.symbol '.', token]) := by
  refine completes_dot hsource htoken fun {fuel rest} hfuel hclean hfollow => ?_
  obtain ⟨fuel, rfl, -⟩ := exists_succ hfuel
  rw [parseMember, hpart]
  refine (if_neg fun h => hlength h.1).trans ((if_neg fun h => hfollow.paren h.1).trans ?_)
  exact bind_eq_ok.mpr ⟨_, hmember, rfl⟩

theorem completes_method {source : Expr} {field : String} {token : TokenKind} {args : List Expr}
    (hsource : Completes crates (.expr 11 source) ts)
    (htoken : token = .ident field ∨ token = .number field) (hpart : splitPart source field = none)
    (hargs : Completes crates (.items args) us) (hmethod : methodExpr source field args = .ok expr) :
    Completes crates (.expr level expr)
      (ts ++ .symbol '.' :: token :: .symbol '(' :: us ++ [.symbol ')']) := by
  rw [List.append_assoc]
  show Completes crates _ (ts ++ .symbol '.' :: token :: (.symbol '(' :: us ++ [.symbol ')']))
  refine completes_dot hsource htoken fun {fuel rest} hfuel hclean hfollow => ?_
  obtain ⟨fuel, rfl, -⟩ := exists_succ hfuel
  simp only [List.length_append, List.length_cons, List.length_nil] at hfuel
  have hopen : current (.symbol '(' :: us ++ [.symbol ')'] ++ rest) = .symbol '(' ∧
      ¬ atLimit none (.symbol '(' :: us ++ [.symbol ')'] ++ rest) = true := ⟨rfl, Bool.false_ne_true⟩
  rw [parseMember, hpart]
  refine (if_neg fun h => h.2 rfl).trans ((if_pos hopen).trans ?_)
  rw [List.append_assoc] at hclean ⊢
  exact bind_eq_ok.mpr ⟨_, hargs.read_args (by omega) (@Clean.right [.symbol '('] _ hclean),
    bind_eq_ok.mpr ⟨_, hmethod, rfl⟩⟩

/-! ### lists -/

theorem current_ne_closer {symbol : Char} (hstart : Starter (current ts))
    (hsymbol : symbol = ')' ∨ symbol = '}') : current (ts ++ rest) ≠ .symbol symbol := by
  rw [current_append hstart]
  intro heq
  rw [heq] at hstart
  obtain rfl | rfl := hsymbol <;> simp [Starter] at hstart

theorem completes_noItems : Completes crates (.items []) [] := by
  intro fuel stop rest hfuel hstop hclean
  obtain ⟨fuel, rfl, -⟩ := exists_succ hfuel
  rw [parseItems]
  exact if_pos rfl

theorem closer_of_stop {stop : Char} (h : stop = ')' ∨ stop = '}') : stop ∈ [')', ']', '}', ','] := by
  obtain rfl | rfl := h <;> decide

theorem completes_item (h : Completes crates (.expr 0 expr) ts) (hstart : Starter (current ts)) :
    Completes crates (.items [expr]) ts := by
  intro fuel stop rest hfuel hstop hclean
  obtain ⟨fuel, rfl, hle⟩ := exists_succ hfuel
  have hcomma : current (.symbol stop :: rest) ≠ .symbol ',' := by
    obtain rfl | rfl := hstop <;> nofun
  rw [parseItems, if_neg (current_ne_closer hstart hstop)]
  refine bind_eq_ok.mpr ⟨_, h.read_closer hle (closer_of_stop hstop) hclean, ?_⟩
  exact if_neg hcomma

theorem completes_consItem {exprs : List Expr} (h : Completes crates (.expr 0 expr) ts)
    (hstart : Starter (current ts)) (hs : Completes crates (.items exprs) us) :
    Completes crates (.items (expr :: exprs)) (ts ++ .symbol ',' :: us) := by
  intro fuel stop rest hfuel hstop hclean
  obtain ⟨fuel, rfl, -⟩ := exists_succ hfuel
  rw [List.length_append, List.length_cons] at hfuel
  rw [List.append_assoc] at hclean ⊢
  rw [parseItems, if_neg (current_ne_closer hstart hstop)]
  refine bind_eq_ok.mpr ⟨_, h.read_closer (by omega) (by decide) hclean, (if_pos rfl).trans ?_⟩
  exact bind_eq_ok.mpr ⟨_, hs (by omega) hstop (@Clean.right [.symbol ','] _ hclean.right), rfl⟩

theorem completes_noFields : Completes crates (.fields []) [] := by
  intro fuel rest hfuel hclean
  obtain ⟨fuel, rfl, -⟩ := exists_succ hfuel
  rw [parseFields]
  exact if_pos rfl

theorem parseField_named {name : String} {symbol : Char} (h : Completes crates (.expr 0 expr) ts)
    (hfuel : 5 * ts.length + 4 ≤ fuel) (hsymbol : symbol ∈ [')', ']', '}', ','])
    (hclean : Clean (ts ++ .symbol symbol :: rest)) :
    parseField crates none fuel (.ident name :: .symbol ':' :: (ts ++ .symbol symbol :: rest)) =
      .ok ((name, expr), .symbol symbol :: rest) := by
  obtain ⟨fuel, rfl, hle⟩ := exists_succ hfuel
  rw [parseField]
  exact bind_eq_ok.mpr ⟨_, h.read_closer hle hsymbol hclean, rfl⟩

theorem parseField_positional {symbol : Char} (h : Completes crates (.expr 0 expr) ts)
    (hstart : Starter (current ts)) (hplain : ∀ name rest, ts ≠ .ident name :: .symbol ':' :: rest)
    (hfuel : 5 * ts.length + 4 ≤ fuel) (hsymbol : symbol ∈ [')', ']', '}', ','])
    (hclean : Clean (ts ++ .symbol symbol :: rest)) :
    parseField crates none fuel (ts ++ .symbol symbol :: rest) =
      .ok (("", expr), .symbol symbol :: rest) := by
  obtain ⟨fuel, rfl, hle⟩ := exists_succ hfuel
  have hread := h.read_closer hle hsymbol hclean
  have hnot : ∀ name us, ts ++ .symbol symbol :: rest ≠ .ident name :: .symbol ':' :: us := by
    intro name us heq
    obtain ⟨token, tail, rfl, -⟩ := exists_cons_of_starter hstart
    obtain ⟨rfl, htail⟩ := List.cons.inj heq
    cases tail with
    | nil =>
      obtain ⟨hcolon, -⟩ := List.cons.inj htail
      obtain rfl := TokenKind.symbol.inj hcolon
      exact absurd hsymbol (by decide)
    | cons second tail =>
      obtain ⟨rfl, -⟩ := List.cons.inj htail
      exact hplain name tail rfl
  rw [parseField]
  · exact bind_eq_ok.mpr ⟨_, hread, rfl⟩
  · exact hnot

theorem parseFields_cons {name : String} {first : Tokens} {fields : List (String × Expr)}
    (hstart : Starter (current first)) (hfuel : 5 * (first.length + us.length + 1) + 5 ≤ fuel)
    (hfield : ∀ {fuel : Nat}, 5 * first.length + 4 ≤ fuel →
      parseField crates none fuel (first ++ .symbol ',' :: (us ++ .symbol '}' :: rest)) =
        .ok ((name, expr), .symbol ',' :: (us ++ .symbol '}' :: rest)))
    (hs : Completes crates (.fields fields) us)
    (hclean : Clean (first ++ .symbol ',' :: (us ++ .symbol '}' :: rest))) :
    parseFields crates none fuel (first ++ .symbol ',' :: (us ++ .symbol '}' :: rest)) =
      .ok ((name, expr) :: fields, .symbol '}' :: rest) := by
  obtain ⟨fuel, rfl, -⟩ := exists_succ hfuel
  rw [parseFields, if_neg (current_ne_closer hstart (.inr rfl))]
  refine bind_eq_ok.mpr ⟨_, hfield (by omega), (if_pos rfl).trans ?_⟩
  exact bind_eq_ok.mpr ⟨_, hs (by omega) (@Clean.right [.symbol ','] _ hclean.right), rfl⟩

theorem parseFields_one {name : String} {first : Tokens} (hstart : Starter (current first))
    (hfuel : 5 * first.length + 5 ≤ fuel)
    (hfield : ∀ {fuel : Nat}, 5 * first.length + 4 ≤ fuel →
      parseField crates none fuel (first ++ .symbol '}' :: rest) =
        .ok ((name, expr), .symbol '}' :: rest)) :
    parseFields crates none fuel (first ++ .symbol '}' :: rest) =
      .ok ([(name, expr)], .symbol '}' :: rest) := by
  obtain ⟨fuel, rfl, hle⟩ := exists_succ hfuel
  have hcomma : current (.symbol '}' :: rest) ≠ .symbol ',' := nofun
  rw [parseFields, if_neg (current_ne_closer hstart (.inr rfl))]
  exact bind_eq_ok.mpr ⟨_, hfield hle, if_neg hcomma⟩

theorem completes_named {name : String} (h : Completes crates (.expr 0 expr) ts) :
    Completes crates (.fields [(name, expr)]) (.ident name :: .symbol ':' :: ts) := by
  intro fuel rest hfuel hclean
  refine parseFields_one trivial hfuel fun {fuel} hle => ?_
  rw [List.length_cons, List.length_cons] at hle
  exact parseField_named h (by omega) (by decide) (@Clean.right [.ident name, .symbol ':'] _ hclean)

theorem completes_consNamed {name : String} {fields : List (String × Expr)}
    (h : Completes crates (.expr 0 expr) ts) (hs : Completes crates (.fields fields) us) :
    Completes crates (.fields ((name, expr) :: fields))
      (.ident name :: .symbol ':' :: ts ++ .symbol ',' :: us) := by
  intro fuel rest hfuel hclean
  simp only [List.length_append, List.length_cons] at hfuel
  rw [List.append_assoc] at hclean ⊢
  refine parseFields_cons trivial (by simp only [List.length_cons]; omega) (fun {fuel} hle => ?_) hs
    hclean
  rw [List.length_cons, List.length_cons] at hle
  exact parseField_named h (by omega) (by decide) (@Clean.right [.ident name, .symbol ':'] _ hclean)

theorem completes_positional (h : Completes crates (.expr 0 expr) ts) (hstart : Starter (current ts))
    (hplain : ∀ name rest, ts ≠ .ident name :: .symbol ':' :: rest) :
    Completes crates (.fields [("", expr)]) ts := by
  intro fuel rest hfuel hclean
  exact parseFields_one hstart hfuel fun {fuel} hle =>
    parseField_positional h hstart hplain hle (by decide) hclean

theorem completes_consPositional {fields : List (String × Expr)}
    (h : Completes crates (.expr 0 expr) ts) (hstart : Starter (current ts))
    (hplain : ∀ name rest, ts ≠ .ident name :: .symbol ':' :: rest)
    (hs : Completes crates (.fields fields) us) :
    Completes crates (.fields (("", expr) :: fields)) (ts ++ .symbol ',' :: us) := by
  intro fuel rest hfuel hclean
  rw [List.length_append, List.length_cons] at hfuel
  rw [List.append_assoc] at hclean ⊢
  exact parseFields_cons hstart (by omega) (fun {fuel} hle =>
    parseField_positional h hstart hplain hle (by decide) hclean) hs hclean

/-! ## every phrase -/

/-- **The parser is complete**: it reads every phrase in front of what may follow it. -/
theorem completes {phrase : Phrase} (h : Derives crates phrase ts) : Completes crates phrase ts := by
  induction h with
  | binary hlevel hl hr ihl ihr => exact completes_binary hlevel ihl ihr hr.starts
  | unary hlevel h ih => exact completes_unary hlevel ih
  | paren hlevel h ih => exact completes_paren ih
  | number hlevel h => exact completes_number h
  | quantity hlevel h hunit hscaled => exact completes_quantity h hunit hscaled
  | string hlevel => exact completes_string
  | bool hlevel h => exact completes_bool h
  | date hlevel h => exact completes_date h
  | new hlevel hpath h ih => exact completes_new hpath ih
  | identifier hlevel hpath hfirst => exact completes_identifier hpath hfirst
  | call hlevel hpath hfirst hdate h hhex ih =>
    exact completes_call hpath hfirst hdate ih h.nested hhex
  | typeCall hlevel hpath hfirst hdims h hhex ih =>
    exact completes_typeCall hpath hfirst hdims ih h.nested hhex
  | hexArray hlevel hpath hfirst hdims hbase harg hvalues h =>
    exact completes_hexArray hpath hfirst hdims hbase harg hvalues h
  | hexCall hlevel hpath hfirst hdate hdims hbytes harg hvalues h =>
    exact completes_hexCall hpath hfirst hdate hdims hbytes harg hvalues h
  | typedArray hlevel hpath hfirst hdims h hvalues ih =>
    exact completes_typedArray hpath hfirst hdims ih hvalues
  | braced hlevel h ih => exact completes_braced ih
  | structLiteral hlevel hpath hfirst h ih => exact completes_structLiteral hpath hfirst ih
  | index hlevel h hi ih ihi => exact completes_index ih ihi hi.nested
  | cast hlevel h hty ih => exact completes_cast hlevel ih hty
  | part hlevel h htoken hpart ih => exact completes_part ih htoken hpart
  | length hlevel h htoken hpart ih => exact completes_length ih htoken hpart
  | member hlevel h htoken hpart hlength hmember ih =>
    exact completes_member ih htoken hpart hlength hmember
  | method hlevel h htoken hpart hargs hmethod ih ihargs =>
    exact completes_method ih htoken hpart ihargs hmethod
  | noItems => exact completes_noItems
  | item h ih => exact completes_item ih h.starts
  | consItem h hs ih ihs => exact completes_consItem ih h.starts ihs
  | noFields => exact completes_noFields
  | named h ih => exact completes_named ih
  | consNamed h hs ih ihs => exact completes_consNamed ih ihs
  | positional h hplain ih => exact completes_positional ih h.starts hplain
  | consPositional h hplain hs ih ihs => exact completes_consPositional ih h.starts hplain ihs

theorem parseExpression_complete (h : Derives crates (.expr 0 expr) ts) (hclean : Clean (ts ++ rest))
    (hfollow : Follow 0 rest) : parseExpression crates none (ts ++ rest) = .ok (expr, rest) := by
  refine (completes h).read ?_ le_rfl (Nat.zero_le 10) hclean hfollow le_rfl (Nat.zero_le 10) ?_
  · rw [List.length_append]
    omega
  · intro op bp width hop
    have hle := hfollow.operator op bp width hop
    rw [(binaryOperator_some hop).1] at hle
    have := bindingPower_bounds op
    omega

/-- **The parser decides the grammar**: in a stream without doubts and in front of what does not go on,
it ends, it reads exactly the expressions that derive, and all the tokens of one. -/
theorem parseExpression_iff (hclean : Clean tokens) (hfollow : Follow 0 rest) :
    Settled (parseExpression crates none tokens) ∧
    (parseExpression crates none tokens = .ok (expr, rest) ↔
      ∃ ts, tokens = ts ++ rest ∧ Derives crates (.expr 0 expr) ts) := by
  refine ⟨parseExpression_settled, parseExpression_sound, ?_⟩
  rintro ⟨ts, rfl, h⟩
  exact parseExpression_complete h hclean hfollow

/-- one text has one tree -/
theorem Derives.unique {other : Expr} (h : Derives crates (.expr 0 expr) ts)
    (h' : Derives crates (.expr 0 other) ts) (hclean : Clean (ts ++ [.symbol ')'])) : expr = other := by
  have hread := parseExpression_complete h hclean (follow_closer (by decide))
  rw [parseExpression_complete h' hclean (follow_closer (by decide))] at hread
  exact (Prod.mk.inj (Except.ok.inj hread)).1.symm

/-! ## streams without brackets behind types -/

/-- no literal and no call stands directly behind a bracket that closes -/
def NoTypes (tokens : Tokens) : Prop :=
  tokens.IsChain fun token next => token = .symbol ']' → next ≠ .symbol '{' ∧ next ≠ .symbol '('

instance : Decidable (NoTypes tokens) := inferInstanceAs (Decidable (List.IsChain _ _))

theorem NoTypes.tail {token : TokenKind} (h : NoTypes (token :: tokens)) : NoTypes tokens :=
  List.IsChain.tail h

theorem NoTypes.right : ∀ {before : Tokens}, NoTypes (before ++ tokens) → NoTypes tokens
  | [], h => h
  | _ :: _, h => NoTypes.right h.tail

theorem NoTypes.behind (h : NoTypes (.symbol ']' :: tokens)) :
    current tokens ≠ .symbol '{' ∧ current tokens ≠ .symbol '(' := by
  cases tokens with
  | nil => exact ⟨nofun, nofun⟩
  | cons token tokens => exact (List.isChain_cons_cons.mp h).1 rfl

theorem NoTypes.scanSuffix (h : NoTypes tokens) : scanSuffix true tokens = false := by
  generalize hinside : true = inside
  have hstart : inside = false → current tokens ≠ .symbol '{' ∧ current tokens ≠ .symbol '(' := by
    rintro rfl
    cases hinside
  clear hinside
  fun_induction Expression.scanSuffix inside tokens with
  | case1 tokens ih => exact ih h.tail nofun
  | case2 symbol tokens hne =>
    have hother := hstart rfl
    refine decide_eq_false fun heq => ?_
    obtain rfl | rfl := heq
    · exact hother.1 rfl
    · exact hother.2 rfl
  | case3 => rfl
  | case4 tokens ih => exact ih h.tail fun _ => h.behind
  | case5 => rfl
  | case6 token tokens hne hne' ih => exact ih h.tail nofun
  | case7 => rfl

/-- such a stream that compares nothing leaves no doubt -/
theorem clean_of_noTypes (hless : .symbol '<' ∉ tokens) (h : NoTypes tokens) : Clean tokens where
  handle before first head rest heq hpath hcurrent := by
    refine hless ?_
    rw [heq, eq_cons_symbol hcurrent]
    exact List.mem_append_right _ List.mem_cons_self
  suffix before name rest heq hcurrent hscan := by
    rw [heq] at h
    have hrest : NoTypes rest := h.right.tail
    rw [eq_cons_symbol hcurrent] at hrest hscan
    rw [scanSuffix, hrest.tail.scanSuffix] at hscan
    cases hscan

end

/-! ## a difference -/

section
def spanCrates : ExprCrates := ⟨fun _ => "", fun _ => none, fun _ => none⟩

/-- `total - fee * -rates[0].bps - 1` -/
def difference : Tokens :=
  [.ident "total", .symbol '-', .ident "fee", .symbol '*', .symbol '-', .ident "rates", .symbol '[',
    .number "0", .symbol ']', .symbol '.', .ident "bps", .symbol '-', .number "1"]

theorem parseExpression_iff_difference :
    parseExpression spanCrates none (difference ++ [.symbol ')', .eof]) =
      .ok (.binary .sub
        (.binary .sub (.identifier "total")
          (.binary .mul (.identifier "fee")
            (.unary .neg (.fieldAccess (.arrayIndex (.identifier "rates") (.int 0)) "bps"))))
        (.int 1), [.symbol ')', .eof]) := by
  have hname : ∀ (level : Nat) (name : String), level ≤ 12 → name ∉ reserved →
      Derives spanCrates (.expr level (.identifier name)) [.ident name] :=
    fun _ name hlevel hname => .identifier hlevel (Path.mk name []) hname
  have hrates : Derives spanCrates (.expr 11 (.arrayIndex (.identifier "rates") (.int 0)))
      [.ident "rates", .symbol '[', .number "0", .symbol ']'] :=
    .index (by decide) (hname 12 "rates" (by decide) (by decide)) (.number (by decide) rfl)
  have hbps : Derives spanCrates
      (.expr 10 (.fieldAccess (.arrayIndex (.identifier "rates") (.int 0)) "bps")) _ :=
    .member (by decide) hrates (.inl rfl) rfl (by decide) rfl
  refine (parseExpression_iff (clean_of_noTypes (by decide) (by decide))
    (follow_closer (by decide))).2.mpr ⟨difference, rfl, ?_⟩
  exact @Derives.binary _ _ .sub _ _ _ _ (by decide)
    (@Derives.binary _ _ .sub _ _ _ _ (by decide) (hname 8 "total" (by decide) (by decide))
      (@Derives.binary _ _ .mul _ _ _ _ (by decide) (hname 9 "fee" (by decide) (by decide))
        (@Derives.unary _ _ .neg _ _ (by decide) hbps)))
    (.number (by decide) rfl)

end

end Argent.Syntax.Expression
