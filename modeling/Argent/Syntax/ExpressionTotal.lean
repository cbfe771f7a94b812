import Argent.Syntax.ExpressionSound

/-!
# The parser of expressions ends

A function of the parser that calls another has taken a token, or the other comes later in an order of
the functions.  Five calls for every token that is left are therefore enough fuel.

* `Settled`                  a result, or an error of the source;
* `SettledAt`                the fuel with which every function settles;
* `settledAt`                **the parser ends** with it;
* `parseExpression_settled`  expressions are read or rejected.
-/

set_option linter.unusedSectionVars false

namespace Argent.Syntax.Expression
open Argent.Fallible Argent.Syntax

/-- not cut off -/
def Settled {α : Type} (x : Except ParseError α) : Prop := x ≠ .error .cutOff

section
variable {α β : Type} {tokens rest : Tokens}

theorem settled_ok {a : α} : Settled (.ok a) := nofun

theorem settled_fail {message : String} : Settled (fail message : Except ParseError α) := nofun

theorem settled_bind {x : Except ParseError α} {f : α → Except ParseError β} (h : Settled x)
    (hf : ∀ a, x = .ok a → Settled (f a)) : Settled (x >>= f) := by
  cases x with
  | error e => exact fun heq => h (congrArg Except.error (Except.error.inj heq))
  | ok a => exact hf a rfl

theorem settled_expectSymbol {symbol : Char} : Settled (expectSymbol symbol tokens) := by
  unfold expectSymbol
  split_ifs
  · exact settled_ok
  · exact settled_fail

theorem settled_expectString : Settled (expectString tokens) := by
  unfold expectString
  split
  · exact settled_ok
  · exact settled_fail

theorem settled_expectAnyIdent : Settled (expectAnyIdent tokens) := by
  unfold expectAnyIdent
  split
  · exact settled_ok
  · exact settled_fail

theorem settled_qualifiedTail {name : String} : Settled (qualifiedTail name tokens) := by
  fun_induction qualifiedTail name tokens with
  | case1 name segment tokens ih => exact ih
  | case2 | case3 => exact settled_fail
  | case4 => exact settled_ok

theorem settled_expectAnyQualifiedIdent : Settled (expectAnyQualifiedIdent tokens) :=
  settled_bind settled_expectAnyIdent fun _ _ => settled_qualifiedTail

theorem settled_parseDim : Settled (parseDim tokens) := by
  unfold parseDim
  split
  · exact settled_ok
  · split_ifs
    · exact settled_ok
    · exact settled_bind settled_expectAnyQualifiedIdent fun _ _ => settled_ok
  · split
    · exact settled_ok
    · exact settled_fail
  · exact settled_fail

theorem settled_parseDims {fuel : Nat} (hfuel : tokens.length < fuel) :
    Settled (parseDims fuel tokens) := by
  induction fuel generalizing tokens with
  | zero => exact absurd hfuel (Nat.not_lt_zero _)
  | succ fuel ih =>
    rw [parseDims]
    split_ifs with hopen
    · refine settled_bind settled_parseDim ?_
      rintro ⟨dim, mid⟩ hdim
      refine settled_bind settled_expectSymbol fun next hclose => settled_bind ?_ fun _ _ => settled_ok
      obtain ⟨t, ht, -⟩ := parseDim_ok hdim
      rw [expectSymbol_eq_ok.mp hclose] at ht
      have hlength := congrArg List.length (eq_cons_symbol hopen)
      rw [ht, List.length_cons, List.length_append, List.length_cons] at hlength
      exact ih (by omega)
    · exact settled_ok

theorem settled_parseSilTypeTail {name : String} : Settled (parseSilTypeTail name tokens) := by
  refine settled_bind ?_ fun mid _ => settled_bind (settled_parseDims (Nat.lt_succ_self _))
    fun _ _ => settled_ok
  unfold skipActorState
  split_ifs
  · exact settled_bind settled_expectAnyQualifiedIdent fun _ _ => settled_expectSymbol
  · exact settled_ok

theorem settled_parseSilType : Settled (parseSilType tokens) :=
  settled_bind settled_expectAnyQualifiedIdent fun _ _ => settled_parseSilTypeTail

theorem settled_mapM {f : α → Except ParseError β} (h : ∀ a, Settled (f a)) : ∀ {l : List α},
    Settled (l.mapM f)
  | [] => settled_ok
  | a :: l => by
    rw [List.mapM_cons]
    exact settled_bind (h a) fun _ _ => settled_bind (settled_mapM h) fun _ _ => settled_ok

theorem settled_hexBytes {raw : String} {digits : List Char} : Settled (hexBytes raw digits) := by
  refine settled_mapM fun pair => ?_
  split
  · exact settled_ok
  · exact settled_fail

variable {crates : ExprCrates}

theorem settled_parseHexCast {ty : SilTypeRef} : Settled (parseHexCast crates ty tokens) := by
  unfold parseHexCast
  split
  · exact settled_ok
  · split_ifs
    · refine settled_bind settled_hexBytes fun values _ => ?_
      split
      · split_ifs
        · exact settled_fail
        · exact settled_ok
      all_goals exact settled_ok
    · split
      · exact settled_ok
      · refine settled_bind settled_hexBytes fun values _ => ?_
        split_ifs
        · exact settled_fail
        · exact settled_ok

theorem settled_parseNumberExpression {raw : String} :
    Settled (parseNumberExpression raw tokens) := by
  unfold parseNumberExpression
  split
  · exact settled_fail
  · split
    · split
      · exact settled_ok
      · exact settled_fail
    · exact settled_ok

theorem settled_splitPart {source : Expr} {field : String} {part : Except ParseError Expr}
    (h : splitPart source field = some part) : Settled part := by
  unfold splitPart at h
  split at h
  · split_ifs at h <;> cases h
    · exact settled_ok
    · exact settled_ok
    · exact settled_fail
  · cases h

theorem settled_memberExpr {source : Expr} {field : String} : Settled (memberExpr source field) := by
  unfold memberExpr
  split
  · split <;> exact settled_ok
  · split_ifs
    · split
      · exact settled_ok
      · exact settled_fail
    · split
      · exact settled_ok
      · exact settled_fail
    · exact settled_ok
  · exact settled_ok

theorem settled_methodExpr {source : Expr} {field : String} {args : List Expr} :
    Settled (methodExpr source field args) := by
  unfold methodExpr
  split
  · exact settled_ok
  · split
    all_goals first | exact settled_ok | exact settled_fail

end

/-! ## what is left -/

section
variable {crates : ExprCrates} {fuel : Nat} {tokens rest : Tokens}

theorem length_advance (h : current tokens ≠ .eof) : (advance tokens).length < tokens.length := by
  conv_rhs => rw [eq_cons_of_current rfl h, List.length_cons]
  exact Nat.lt_succ_self _

theorem length_advance_of {token : TokenKind} (h : current tokens = token) (htoken : token ≠ .eof) :
    (advance tokens).length < tokens.length :=
  length_advance (h ▸ htoken)

theorem length_expectSymbol {symbol : Char} (h : expectSymbol symbol tokens = .ok rest) :
    rest.length < tokens.length := by
  rw [expectSymbol_eq_ok.mp h, List.length_cons]
  exact Nat.lt_succ_self _

theorem length_qualified {name : String} (h : expectAnyQualifiedIdent tokens = .ok (name, rest)) :
    rest.length < tokens.length := by
  obtain ⟨first, t, rfl, hpath, -⟩ := expectAnyQualifiedIdent_ok h
  cases hpath
  rw [List.cons_append, List.length_cons, List.length_append]
  omega

theorem length_silTypeTail {name : String} {ty : SilTypeRef}
    (h : parseSilTypeTail name tokens = .ok (ty, rest)) : rest.length ≤ tokens.length := by
  obtain ⟨ts, rfl, -⟩ := (parseSilTypeTail_ok h).2 (Path.mk name [])
  rw [List.length_append]
  omega

theorem length_expressionBp {minBp : Nat} {expr : Expr} (hbp : minBp ≤ 10)
    (h : parseExpressionBp crates none fuel minBp tokens = .ok (expr, rest)) :
    rest.length < tokens.length := by
  obtain ⟨ts, level, rfl, hderives, -, -⟩ := (soundAt fuel).expressionBp hbp h
  obtain ⟨token, us, rfl, -⟩ := exists_cons_of_starter hderives.starts
  rw [List.cons_append, List.length_cons, List.length_append]
  omega

theorem length_prefix {expr : Expr} (h : parsePrefix crates none fuel tokens = .ok (expr, rest)) :
    rest.length < tokens.length := by
  obtain ⟨ts, level, rfl, hderives, -, -⟩ := (soundAt fuel).head h
  obtain ⟨token, us, rfl, -⟩ := exists_cons_of_starter hderives.starts
  rw [List.cons_append, List.length_cons, List.length_append]
  omega

theorem length_field {name : String} {expr : Expr}
    (h : parseField crates none fuel tokens = .ok ((name, expr), rest)) :
    rest.length ≤ tokens.length := by
  obtain ⟨ts, -, rfl | ⟨rfl, -, -⟩⟩ := (soundAt fuel).field h
  · rw [List.cons_append, List.cons_append, List.length_cons, List.length_cons, List.length_append]
    omega
  · rw [List.length_append]
    omega

/-! ## one step of every function -/

/-- the fuel with which the functions of the parser settle: five calls for every token, and those that
come before the next one is taken -/
structure SettledAt (crates : ExprCrates) (fuel : Nat) : Prop where
  expressionBp : ∀ {minBp : Nat} {tokens : Tokens}, minBp ≤ 10 → 5 * tokens.length + 3 ≤ fuel →
    Settled (parseExpressionBp crates none fuel minBp tokens)
  operators : ∀ {minBp level : Nat} {ts tokens : Tokens} {left : Expr}, minBp ≤ 10 →
    Derives crates (.expr level left) ts → minBp ≤ level → Continues level tokens →
      5 * tokens.length + 2 ≤ fuel → Settled (parseOperators crates none fuel minBp left tokens)
  head : ∀ {tokens : Tokens}, 5 * tokens.length + 2 ≤ fuel →
    Settled (parsePrefix crates none fuel tokens)
  name : ∀ {tokens : Tokens}, 5 * tokens.length + 1 ≤ fuel →
    Settled (parseNameExpression crates none fuel tokens)
  typedArray : ∀ {ty : SilTypeRef} {tokens : Tokens}, 5 * tokens.length + 1 ≤ fuel →
    Settled (parseTypedArray crates none fuel ty tokens)
  braced : ∀ {name : String} {tokens : Tokens}, 5 * tokens.length + 1 ≤ fuel →
    Settled (parseBracedLiteral crates none fuel name tokens)
  fields : ∀ {tokens : Tokens}, 5 * tokens.length + 5 ≤ fuel →
    Settled (parseFields crates none fuel tokens)
  field : ∀ {tokens : Tokens}, 5 * tokens.length + 4 ≤ fuel →
    Settled (parseField crates none fuel tokens)
  items : ∀ {stop : Char} {tokens : Tokens}, 5 * tokens.length + 4 ≤ fuel →
    Settled (parseItems crates none fuel stop tokens)
  args : ∀ {tokens : Tokens}, 5 * tokens.length + 1 ≤ fuel →
    Settled (parseExpressionArgs crates none fuel tokens)
  suffix : ∀ {source : Expr} {tokens : Tokens}, 5 * tokens.length + 1 ≤ fuel →
    Settled (parsePostfix crates none fuel source tokens)
  member : ∀ {source : Expr} {field : String} {tokens : Tokens}, 5 * tokens.length + 2 ≤ fuel →
    Settled (parseMember crates none fuel source field tokens)

theorem parseExpressionBp_settled (ih : SettledAt crates fuel) {minBp : Nat} (hbp : minBp ≤ 10)
    (hfuel : 5 * tokens.length + 3 ≤ fuel + 1) :
    Settled (parseExpressionBp crates none (fuel + 1) minBp tokens) := by
  rw [parseExpressionBp]
  refine settled_bind (ih.head (by omega)) ?_
  rintro ⟨left, mid⟩ hhead
  have hlength := length_prefix hhead
  obtain ⟨ts, level, -, hleft, hlevel, hcontinues⟩ := (soundAt fuel).head hhead
  exact ih.operators hbp hleft (Nat.le_trans hbp hlevel) hcontinues (by omega)

theorem parseOperators_settled (ih : SettledAt crates fuel) {minBp level : Nat} {ts : Tokens}
    {left : Expr} (hbp : minBp ≤ 10) (hleft : Derives crates (.expr level left) ts)
    (hcontinues : Continues level tokens) (hfuel : 5 * tokens.length + 2 ≤ fuel + 1) :
    Settled (parseOperators crates none (fuel + 1) minBp left tokens) := by
  rw [parseOperators, if_neg (show ¬ pastLimit none tokens = true from Bool.false_ne_true)]
  split_ifs with hbehind
  · refine settled_bind (ih.suffix (by omega)) ?_
    rintro ⟨next, mid⟩ hnext
    obtain ⟨us, level', hne, rfl, hderives, hlevel', hcontinues'⟩ :=
      (soundAt fuel).suffix hleft hcontinues hbehind.2 hnext
    have hlength := List.length_pos_of_ne_nil hne
    rw [List.length_append] at hfuel
    exact ih.operators hbp hderives (Nat.le_trans hbp (Nat.le_of_succ_le hlevel')) hcontinues'
      (by omega)
  · split
    · exact settled_ok
    · rename_i op bp width hop
      split_ifs with hlow
      · exact settled_ok
      · obtain ⟨rfl, htokens, hwidth⟩ := binaryOperator_some hop
        have hpower := bindingPower_bounds op
        have hlength : (tokens.drop width).length < tokens.length := by
          conv_rhs => rw [htokens, List.length_append]
          have : 0 < (operatorText op).length := by cases op <;> decide
          omega
        refine settled_bind (ih.expressionBp (Nat.succ_le_succ hpower.2) (by omega)) ?_
        rintro ⟨right, mid⟩ hright
        have hlength' := length_expressionBp (Nat.succ_le_succ hpower.2) hright
        obtain ⟨us, level', -, hderives, hlevel', hstops⟩ :=
          (soundAt fuel).expressionBp (Nat.succ_le_succ hpower.2) hright
        have hbinary : Derives crates (.expr (bindingPower op) (.binary op left right))
            (ts ++ operatorText op ++ us) :=
          .binary le_rfl (hleft.mono (hcontinues.operator _ _ _ hop)) (hderives.mono hlevel')
        exact ih.operators hbp hbinary (Nat.le_of_not_lt hlow) (hstops.continues le_rfl) (by omega)

theorem parsePrefix_settled (ih : SettledAt crates fuel) (hfuel : 5 * tokens.length + 2 ≤ fuel + 1) :
    Settled (parsePrefix crates none (fuel + 1) tokens) := by
  rw [parsePrefix]
  split
  case h_1 hcurrent | h_2 hcurrent =>
    have hlength := length_advance_of hcurrent (by simp)
    exact settled_bind (ih.expressionBp le_rfl (by omega)) fun _ _ => settled_ok
  case h_3 hcurrent =>
    have hlength := length_advance_of hcurrent (by simp)
    exact settled_bind (ih.expressionBp (Nat.zero_le 10) (by omega)) fun _ _ =>
      settled_bind settled_expectSymbol fun _ _ => settled_ok
  case h_4 hcurrent => exact ih.braced (by omega)
  case h_5 => exact settled_parseNumberExpression
  case h_6 => exact settled_ok
  case h_7 name hcurrent =>
    have hlength := length_advance_of hcurrent (by simp)
    split_ifs
    · exact settled_ok
    · refine settled_bind settled_expectAnyQualifiedIdent ?_
      rintro ⟨name', mid⟩ hname
      have hlength' := length_qualified hname
      exact settled_bind (ih.args (by omega)) fun _ _ => settled_ok
    · refine settled_bind settled_expectSymbol fun _ _ => settled_bind settled_expectString
        fun _ _ => settled_bind settled_expectSymbol fun _ _ => ?_
      split
      · exact settled_ok
      · exact settled_fail
    · exact ih.name (by omega)
  case h_8 => exact settled_fail

theorem parseNameExpression_settled (ih : SettledAt crates fuel)
    (hfuel : 5 * tokens.length + 1 ≤ fuel + 1) :
    Settled (parseNameExpression crates none (fuel + 1) tokens) := by
  rw [parseNameExpression]
  refine settled_bind settled_expectAnyQualifiedIdent ?_
  rintro ⟨name, mid⟩ hname
  have hlength := length_qualified hname
  simp only
  split_ifs
  · refine settled_bind settled_parseSilTypeTail ?_
    rintro ⟨ty, mid'⟩ hty
    have hlength' := length_silTypeTail hty
    simp only
    split_ifs
    · exact ih.typedArray (by omega)
    · refine settled_bind settled_parseHexCast fun cast _ => ?_
      split
      · exact settled_ok
      · exact settled_bind (ih.args (by omega)) fun _ _ => settled_ok
  · refine settled_bind settled_parseSilTypeTail ?_
    rintro ⟨ty, mid'⟩ hty
    refine settled_bind settled_parseHexCast fun cast _ => ?_
    have hlength' := length_silTypeTail hty
    split
    · exact settled_ok
    · have hargs : 5 * mid'.length + 1 ≤ fuel := by omega
      exact settled_bind (ih.args hargs) fun _ _ => settled_ok
  · exact ih.braced (by omega)
  · exact settled_ok

theorem parseTypedArray_settled (ih : SettledAt crates fuel) {ty : SilTypeRef}
    (hfuel : 5 * tokens.length + 1 ≤ fuel + 1) :
    Settled (parseTypedArray crates none (fuel + 1) ty tokens) := by
  rw [parseTypedArray]
  refine settled_bind settled_expectSymbol fun mid hopen => ?_
  have hlength := length_expectSymbol hopen
  refine settled_bind (ih.items (by omega)) fun _ _ => settled_bind settled_expectSymbol fun _ _ => ?_
  split
  · split_ifs
    · exact settled_fail
    · exact settled_ok
  all_goals first | exact settled_ok | exact settled_fail

theorem parseBracedLiteral_settled (ih : SettledAt crates fuel) {name : String}
    (hfuel : 5 * tokens.length + 1 ≤ fuel + 1) :
    Settled (parseBracedLiteral crates none (fuel + 1) name tokens) := by
  rw [parseBracedLiteral]
  refine settled_bind settled_expectSymbol fun mid hopen => ?_
  have hlength := length_expectSymbol hopen
  exact settled_bind (ih.fields (by omega)) fun _ _ =>
    settled_bind settled_expectSymbol fun _ _ => settled_ok

theorem parseFields_settled (ih : SettledAt crates fuel) (hfuel : 5 * tokens.length + 5 ≤ fuel + 1) :
    Settled (parseFields crates none (fuel + 1) tokens) := by
  rw [parseFields]
  split_ifs
  · exact settled_ok
  · refine settled_bind (ih.field (by omega)) ?_
    rintro ⟨⟨name, expr⟩, mid⟩ hfield
    have hlength := length_field hfield
    simp only
    split_ifs with hcomma
    · have hlength' := length_advance_of hcomma (by simp)
      exact settled_bind (ih.fields (by omega)) fun _ _ => settled_ok
    · exact settled_ok

theorem parseField_settled (ih : SettledAt crates fuel) (hfuel : 5 * tokens.length + 4 ≤ fuel + 1) :
    Settled (parseField crates none (fuel + 1) tokens) := by
  rw [parseField.eq_def]
  simp only
  split
  · rw [List.length_cons, List.length_cons] at hfuel
    exact settled_bind (ih.expressionBp (Nat.zero_le 10) (by omega)) fun _ _ => settled_ok
  · exact settled_bind (ih.expressionBp (Nat.zero_le 10) (by omega)) fun _ _ => settled_ok

theorem parseItems_settled (ih : SettledAt crates fuel) {stop : Char}
    (hfuel : 5 * tokens.length + 4 ≤ fuel + 1) :
    Settled (parseItems crates none (fuel + 1) stop tokens) := by
  rw [parseItems]
  split_ifs
  · exact settled_ok
  · refine settled_bind (ih.expressionBp (Nat.zero_le 10) (by omega)) ?_
    rintro ⟨item, mid⟩ hitem
    have hlength := length_expressionBp (Nat.zero_le 10) hitem
    simp only
    split_ifs with hcomma
    · have hlength' := length_advance_of hcomma (by simp)
      exact settled_bind (ih.items (by omega)) fun _ _ => settled_ok
    · exact settled_ok

theorem parseExpressionArgs_settled (ih : SettledAt crates fuel)
    (hfuel : 5 * tokens.length + 1 ≤ fuel + 1) :
    Settled (parseExpressionArgs crates none (fuel + 1) tokens) := by
  rw [parseExpressionArgs]
  refine settled_bind settled_expectSymbol fun mid hopen => ?_
  have hlength := length_expectSymbol hopen
  exact settled_bind (ih.items (by omega)) fun _ _ =>
    settled_bind settled_expectSymbol fun _ _ => settled_ok

theorem parsePostfix_settled (ih : SettledAt crates fuel) {source : Expr}
    (hfuel : 5 * tokens.length + 1 ≤ fuel + 1) :
    Settled (parsePostfix crates none (fuel + 1) source tokens) := by
  rw [parsePostfix]
  split_ifs with hindex
  · have hlength := length_advance_of hindex (by simp)
    exact settled_bind (ih.expressionBp (Nat.zero_le 10) (by omega)) fun _ _ =>
      settled_bind settled_expectSymbol fun _ _ => settled_ok
  · exact settled_bind settled_parseSilType fun _ _ => settled_ok
  · refine settled_bind settled_expectSymbol fun mid hdot => ?_
    have hlength := length_expectSymbol hdot
    split
    case h_1 hcurrent | h_2 hcurrent =>
      have hlength' := length_advance_of hcurrent (by simp)
      exact ih.member (by omega)
    case h_3 => exact settled_fail

theorem parseMember_settled (ih : SettledAt crates fuel) {source : Expr} {field : String}
    (hfuel : 5 * tokens.length + 2 ≤ fuel + 1) :
    Settled (parseMember crates none (fuel + 1) source field tokens) := by
  rw [parseMember]
  split
  case h_1 part hpart => exact settled_bind (settled_splitPart hpart) fun _ _ => settled_ok
  case h_2 =>
    split_ifs
    · exact settled_ok
    · exact settled_bind (ih.args (by omega)) fun _ _ =>
        settled_bind settled_methodExpr fun _ _ => settled_ok
    · exact settled_bind settled_memberExpr fun _ _ => settled_ok

/-- **The parser ends**: every function settles with five calls for every token. -/
theorem settledAt : ∀ fuel, SettledAt crates fuel
  | 0 => by constructor <;> intros <;> omega
  | fuel + 1 =>
    have ih := settledAt fuel
    { expressionBp := fun hbp hfuel => parseExpressionBp_settled ih hbp hfuel
      operators := fun hbp hleft _ hcontinues hfuel =>
        parseOperators_settled ih hbp hleft hcontinues hfuel
      head := fun hfuel => parsePrefix_settled ih hfuel
      name := fun hfuel => parseNameExpression_settled ih hfuel
      typedArray := fun hfuel => parseTypedArray_settled ih hfuel
      braced := fun hfuel => parseBracedLiteral_settled ih hfuel
      fields := fun hfuel => parseFields_settled ih hfuel
      field := fun hfuel => parseField_settled ih hfuel
      items := fun hfuel => parseItems_settled ih hfuel
      args := fun hfuel => parseExpressionArgs_settled ih hfuel
      suffix := fun hfuel => parsePostfix_settled ih hfuel
      member := fun hfuel => parseMember_settled ih hfuel }

/-- expressions are read or rejected -/
theorem parseExpression_settled : Settled (parseExpression crates none tokens) :=
  (settledAt _).expressionBp (Nat.zero_le 10) le_rfl

end

end Argent.Syntax.Expression
