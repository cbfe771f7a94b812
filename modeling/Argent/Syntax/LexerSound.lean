import Argent.Syntax.Lexer
import Mathlib.Data.List.TakeWhile

/-!
# Tokens tile their source

* `Trivia`          whitespace and nested comments, by a grammar;
* `Lexer.step_outcome`      one iteration reads whole characters: of trivia, or of one token;
* `lexArgentSource_tiles`      **the scanner ends, without a panic, and its tokens tile the text**.
-/

set_option linter.unusedSectionVars false

namespace Argent.Syntax
open Argent.Fallible Argent.Utf8

/-! ## what stands between tokens -/

/-- the rest of a block comment that is `depth` comments deep -/
inductive Inside : Nat → List UInt8 → Prop
  | closed : Inside 0 []
  | opens {depth : Nat} {text : List UInt8} (inner : Inside (depth + 2) text) :
    Inside (depth + 1) (ascii '/' :: ascii '*' :: text)
  | closes {depth : Nat} {text : List UInt8} (outer : Inside depth text) :
    Inside (depth + 1) (ascii '*' :: ascii '/' :: text)
  | other {depth : Nat} {b b' : UInt8} {text : List UInt8}
    (opens : ¬ (b = ascii '/' ∧ b' = ascii '*')) (closes : ¬ (b = ascii '*' ∧ b' = ascii '/'))
    (inner : Inside (depth + 1) (b' :: text)) : Inside (depth + 1) (b :: b' :: text)

/-- one whitespace character or comment, which stands before `following` -/
inductive TriviaItem (following : List UInt8) : List UInt8 → Prop
  | space {b : UInt8} (space : b ∈ [' ', '\t', '\r', '\n'].map ascii) : TriviaItem following [b]
  /-- a line comment extends to the end of its line, or of the text -/
  | line {body : List UInt8} (oneLine : ascii '\n' ∉ body)
    (ends : following.head? = none ∨ following.head? = some (ascii '\n')) :
    TriviaItem following (ascii '/' :: ascii '/' :: body)
  | block {body : List UInt8} (inside : Inside 1 body) :
    TriviaItem following (ascii '/' :: ascii '*' :: body)

/-- whitespace and comments, which stand before `following` -/
inductive Trivia (following : List UInt8) : List UInt8 → Prop
  | nil : Trivia following []
  | cons {item text : List UInt8} (item_ : TriviaItem (text ++ following) item)
    (trivia : Trivia following text) : Trivia following (item ++ text)

/-! ## positions of a text -/

section
variable {text : List Char} {n start : Nat} {b : UInt8} {p : UInt8 → Bool}

/-- a character of the text ends after `n` bytes -/
def Ends (text : List Char) (n : Nat) : Prop :=
  ∃ mid tail, text = mid ++ tail ∧ (utf8 mid).length = n

theorem ends_zero : Ends text 0 := ⟨[], text, rfl, rfl⟩

theorem ends_length : Ends text (utf8 text).length := ⟨text, [], (List.append_nil _).symm, rfl⟩

theorem ends_of_ascii (h : (utf8 text)[n]? = some b) (hb : b < 128) : Ends text n := by
  obtain ⟨mid, c, tail, htext, hlen, -⟩ := boundary_of_ascii h hb
  exact ⟨mid, c :: tail, htext, hlen⟩

theorem ends_after_ascii (h : (utf8 text)[n]? = some b) (hb : b < 128) : Ends text (n + 1) := by
  obtain ⟨mid, c, tail, htext, hlen, hc⟩ := boundary_of_ascii h hb
  refine ⟨mid ++ [c], tail, by rw [htext, List.append_assoc]; rfl, ?_⟩
  rw [utf8_append, utf8_cons, hc, List.length_append, hlen]
  rfl

end

/-! ## lengths of what is scanned -/

section
variable {p : UInt8 → Bool} {rest : List UInt8} {n depth start : Nat} {b : UInt8} {text : List Char}

theorem spanLength_cons (b : UInt8) (rest : List UInt8) :
    spanLength p (b :: rest) = if p b then spanLength p rest + 1 else 0 := by
  unfold spanLength
  rw [List.takeWhile_cons]
  split_ifs
  · rfl
  · rfl

theorem spanLength_le (rest : List UInt8) : spanLength p rest ≤ rest.length :=
  (List.takeWhile_prefix p).length_le

theorem spanLength_last (h : spanLength p rest = n + 1) : ∃ b, rest[n]? = some b ∧ p b = true := by
  induction rest generalizing n with
  | nil => cases h
  | cons b rest ih =>
    rw [spanLength_cons] at h
    split_ifs at h with hb
    cases n with
    | zero => exact ⟨b, rfl, hb⟩
    | succ n =>
      rw [List.getElem?_cons_succ]
      exact ih (by omega)

theorem spanLength_stop (h : rest[spanLength p rest]? = some b) : p b = false := by
  induction rest with
  | nil => cases h
  | cons b' rest ih =>
    rw [spanLength_cons] at h
    split_ifs at h with hb
    · rw [List.getElem?_cons_succ] at h
      exact ih h
    · rw [List.getElem?_cons_zero, Option.some_inj] at h
      rw [← h]
      exact eq_false_of_ne_true hb

theorem spanLength_take (h : spanLength p rest ≤ n) : spanLength p (rest.take n) = spanLength p rest := by
  induction rest generalizing n with
  | nil => rw [List.take_nil]
  | cons b rest ih =>
    rw [spanLength_cons] at h ⊢
    cases n with
    | zero =>
      rw [Nat.le_zero.mp h]
      rfl
    | succ n =>
      rw [List.take_succ_cons, spanLength_cons]
      split_ifs at h ⊢
      · rw [ih (by omega)]
      · rfl

/-- a loop that passes ASCII bytes ends after a character -/
theorem ends_spanLength (hp : ∀ b, p b = true → b < 128) (h : Ends text start) :
    Ends text (start + spanLength p ((utf8 text).drop start)) := by
  generalize hspan : spanLength p ((utf8 text).drop start) = count
  cases count with
  | zero => exact h
  | succ count =>
    obtain ⟨b, hb, hpass⟩ := spanLength_last hspan
    rw [List.getElem?_drop] at hb
    exact ends_after_ascii hb (hp b hpass)

theorem mem_take_spanLength (h : b ∈ rest.take (spanLength p rest)) : p b = true := by
  unfold spanLength at h
  rw [← List.prefix_iff_eq_take.mp (List.takeWhile_prefix p)] at h
  exact List.mem_takeWhile_imp h

theorem closeBlock_last (h : closeBlock depth rest = some n) :
    ∃ m, n = m + 1 ∧ rest[m]? = some (ascii '/') := by
  fun_induction closeBlock depth rest generalizing n with
  | case1 => cases h
  | case2 => cases h
  | case3 depth b b' rest hopens ih =>
    obtain ⟨n, hn, rfl⟩ := Option.map_eq_some_iff.mp h
    obtain ⟨m, rfl, hlast⟩ := ih hn
    exact ⟨m + 2, rfl, hlast⟩
  | case4 rest b b' hopens hcloses =>
    cases h
    exact ⟨1, rfl, congrArg some hcloses.2⟩
  | case5 depth b b' rest hopens hcloses hdepth ih =>
    obtain ⟨n, hn, rfl⟩ := Option.map_eq_some_iff.mp h
    obtain ⟨m, rfl, hlast⟩ := ih hn
    exact ⟨m + 2, rfl, hlast⟩
  | case6 depth b b' rest hopens hcloses ih =>
    obtain ⟨n, hn, rfl⟩ := Option.map_eq_some_iff.mp h
    obtain ⟨m, rfl, hlast⟩ := ih hn
    exact ⟨m + 1, rfl, hlast⟩

/-- what is skipped in a block comment is nested comments and other bytes -/
theorem closeBlock_inside (h : closeBlock depth rest = some n) (hdepth : 0 < depth) :
    Inside depth (rest.take n) := by
  fun_induction closeBlock depth rest generalizing n with
  | case1 => cases h
  | case2 => cases h
  | case3 depth b b' rest hopens ih =>
    obtain ⟨n, hn, rfl⟩ := Option.map_eq_some_iff.mp h
    obtain ⟨depth, rfl⟩ := Nat.exists_eq_succ_of_ne_zero hdepth.ne'
    rw [List.take_succ_cons, List.take_succ_cons, hopens.1, hopens.2]
    exact .opens (ih hn (Nat.succ_pos _))
  | case4 rest b b' hopens hcloses =>
    cases h
    rw [List.take_succ_cons, List.take_succ_cons, hcloses.1, hcloses.2]
    exact .closes .closed
  | case5 depth b b' rest hopens hcloses hone ih =>
    obtain ⟨n, hn, rfl⟩ := Option.map_eq_some_iff.mp h
    obtain ⟨depth, rfl⟩ := Nat.exists_eq_succ_of_ne_zero hdepth.ne'
    rw [List.take_succ_cons, List.take_succ_cons, hcloses.1, hcloses.2]
    exact .closes (ih hn (by omega))
  | case6 depth b b' rest hopens hcloses ih =>
    obtain ⟨n, hn, rfl⟩ := Option.map_eq_some_iff.mp h
    obtain ⟨depth, rfl⟩ := Nat.exists_eq_succ_of_ne_zero hdepth.ne'
    obtain ⟨m, rfl, _⟩ := closeBlock_last hn
    have hinside := ih hn hdepth
    rw [List.take_succ_cons] at hinside ⊢
    exact .other hopens hcloses hinside

theorem map_eq_ok {ε α β : Type} {f : α → β} {x : Except ε α} {b : β} (h : x.map f = .ok b) :
    ∃ a, x = .ok a ∧ f a = b := by
  cases x with
  | error e => cases h
  | ok a => exact ⟨a, rfl, Except.ok.inj h⟩

theorem closeString_last (h : closeString rest = .ok n) :
    ∃ m, n = m + 1 ∧ rest[m]? = some (ascii '"') := by
  fun_induction closeString rest generalizing n with
  | case1 => cases h
  | case2 =>
    cases h
    exact ⟨0, rfl, rfl⟩
  | case3 => cases h
  | case4 => cases h
  | case5 =>
    cases h
    exact ⟨0, rfl, rfl⟩
  | case6 b' rest hquote ih =>
    obtain ⟨n, hn, rfl⟩ := map_eq_ok h
    obtain ⟨m, rfl, hlast⟩ := ih hn
    exact ⟨m + 2, rfl, hlast⟩
  | case7 b b' rest hquote hescape ih =>
    obtain ⟨n, hn, rfl⟩ := map_eq_ok h
    obtain ⟨m, rfl, hlast⟩ := ih hn
    exact ⟨m + 1, rfl, hlast⟩

theorem closeString_take (h : closeString rest = .ok n) : closeString (rest.take n) = .ok n := by
  fun_induction closeString rest generalizing n with
  | case1 => cases h
  | case2 =>
    cases h
    rfl
  | case3 => cases h
  | case4 => cases h
  | case5 =>
    cases h
    rfl
  | case6 b' rest hquote ih =>
    obtain ⟨n, hn, rfl⟩ := map_eq_ok h
    rw [List.take_succ_cons, List.take_succ_cons, closeString, if_neg hquote, if_pos rfl, ih hn]
    rfl
  | case7 b b' rest hquote hescape ih =>
    obtain ⟨n, hn, rfl⟩ := map_eq_ok h
    obtain ⟨m, rfl, _⟩ := closeString_last hn
    have htake := ih hn
    rw [List.take_succ_cons] at htake ⊢
    rw [List.take_succ_cons, closeString, if_neg hquote, if_neg hescape, htake]
    rfl

/-! ### numbers -/

theorem numberLength_of_hex (hzero : rest[0]? = some (ascii '0'))
    (hx : rest[1]? = some (ascii 'x') ∨ rest[1]? = some (ascii 'X')) :
    numberLength rest = 2 + spanLength isHexDigit (rest.drop 2) := by
  unfold numberLength
  rw [if_pos ⟨hzero, hx⟩]

theorem numberLength_take : numberLength (rest.take (numberLength rest)) = numberLength rest := by
  have hget : ∀ {m k : Nat}, k < m → (rest.take m)[k]? = rest[k]? := fun hk =>
    List.getElem?_take_of_lt hk
  by_cases hhex : rest[0]? = some (ascii '0') ∧
      (rest[1]? = some (ascii 'x') ∨ rest[1]? = some (ascii 'X'))
  · have hlen := numberLength_of_hex hhex.1 hhex.2
    rw [hlen]
    have htake := @numberLength_of_hex (rest.take (2 + spanLength isHexDigit (rest.drop 2)))
      (by rw [hget (by omega)]; exact hhex.1) (by rw [hget (by omega)]; exact hhex.2)
    rw [htake, List.drop_take, Nat.add_sub_cancel_left, spanLength_take (Nat.le_refl _)]
  · have hlen : ∀ m, numberLength rest = m → ¬ ((rest.take m)[0]? = some (ascii '0') ∧
        ((rest.take m)[1]? = some (ascii 'x') ∨ (rest.take m)[1]? = some (ascii 'X'))) := by
      rintro m - ⟨hzero, hx⟩
      refine hhex ⟨?_, ?_⟩
      · obtain ⟨hlt, -⟩ := List.getElem?_eq_some_iff.mp hzero
        rw [List.length_take] at hlt
        rwa [hget (by omega)] at hzero
      · have hlt : 1 < (rest.take m).length := by
          obtain h | h := hx
          · exact (List.getElem?_eq_some_iff.mp h).1
          · exact (List.getElem?_eq_some_iff.mp h).1
        rw [List.length_take] at hlt
        rwa [hget (by omega)] at hx
    generalize hm : numberLength rest = m
    have hnot := hlen m hm
    unfold numberLength at hm ⊢
    rw [if_neg hhex] at hm
    rw [if_neg hnot]
    dsimp only at hm ⊢
    by_cases hexponent : rest[spanLength isDigitOrSeparator rest]? = some (ascii 'e') ∨
        rest[spanLength isDigitOrSeparator rest]? = some (ascii 'E')
    · rw [if_pos hexponent] at hm
      have hdigits : spanLength isDigitOrSeparator (rest.take m) =
          spanLength isDigitOrSeparator rest := spanLength_take (by omega)
      rw [hdigits, hget (by omega), if_pos hexponent, List.drop_take, ← hm]
      rw [Nat.add_sub_cancel_left, spanLength_take (Nat.le_refl _)]
    · rw [if_neg hexponent] at hm
      have hdigits : spanLength isDigitOrSeparator (rest.take m) =
          spanLength isDigitOrSeparator rest := spanLength_take (by omega)
      have hend : (rest.take m)[spanLength isDigitOrSeparator rest]? = none := by
        rw [List.getElem?_eq_none_iff, List.length_take]
        omega
      rw [hdigits, hend, if_neg (by rintro (h | h) <;> cases h), hm]

end

/-! ## errors -/

theorem ok_bind {ε α β : Type} (a : α) (f : α → Except ε β) : (Except.ok a >>= f) = f a := rfl

theorem isCharBoundary_floorBoundary (source : List Char) (offset : Nat) :
    isCharBoundary source (floorBoundary source offset) = true := by
  induction offset with
  | zero => exact isCharBoundary_zero
  | succ offset ih =>
    rw [floorBoundary]
    split_ifs with h
    · exact h
    · exact ih

/-- an error is located without a panic -/
theorem errorAt_eq {α : Type} (lexer : Lexer) (byteOffset : Nat) (message : String) :
    ∃ e, (lexer.errorAt byteOffset message : Except (Fault ArgentError) α) = fail e := by
  have hlocation : ∃ location, sourceLocation lexer.source byteOffset = .ok location := by
    have hboundary := isCharBoundary_floorBoundary lexer.source
      (min byteOffset (utf8 lexer.source).length)
    obtain ⟨⟨pre, post⟩, hsplit⟩ := Option.isSome_iff_exists.mp hboundary
    obtain ⟨hsource, hlen⟩ := splitByte_eq_some.mp hsplit
    have hslice := slice_append [] pre post
    rw [List.nil_append, ← hsource, show (utf8 []).length = 0 from rfl, Nat.zero_add, hlen] at hslice
    refine ⟨_, bind_eq_ok.mpr ⟨pre, ?_, rfl⟩⟩
    unfold sliceAt
    rw [hslice]
    rfl
  obtain ⟨location, hlocation⟩ := hlocation
  refine ⟨⟨location, message⟩, ?_⟩
  unfold Lexer.errorAt
  rw [hlocation]
  rfl

/-! ## where the scanner stands -/

section
variable {lexer : Lexer} {pre post mid tail : List Char} {b : UInt8}

/-- the scanner has read `pre`, and `post` is left -/
structure Lexer.At (lexer : Lexer) (pre post : List Char) : Prop where
  source : lexer.source = pre ++ post
  pos : (utf8 pre).length = lexer.pos

namespace Lexer.At

theorem rest_eq (h : lexer.At pre post) : lexer.rest = utf8 post := by
  unfold Lexer.rest Lexer.bytes
  rw [h.source, utf8_append, ← h.pos, List.drop_left]

theorem byte_eq (h : lexer.At pre post) (k : Nat) :
    lexer.bytes[lexer.pos + k]? = (utf8 post)[k]? := by
  rw [← h.rest_eq]
  exact List.getElem?_drop.symm

theorem advance (h : lexer.At pre (mid ++ tail)) :
    (lexer.advance (utf8 mid).length).At (pre ++ mid) tail where
  source := by
    show lexer.source = _
    rw [h.source, List.append_assoc]
  pos := by
    show _ = lexer.pos + _
    rw [utf8_append, List.length_append, h.pos]

theorem sliceAt_eq (h : lexer.At pre (mid ++ tail)) :
    sliceAt lexer.source lexer.pos (lexer.pos + (utf8 mid).length) = .ok mid := by
  unfold sliceAt
  rw [h.source, ← h.pos, slice_append]
  rfl

theorem alone (text : List Char) : (⟨text, 0, []⟩ : Lexer).At [] (text ++ []) :=
  ⟨(List.append_nil text).symm, rfl⟩

end Lexer.At

theorem take_utf8 (mid tail : List Char) : (utf8 (mid ++ tail)).take (utf8 mid).length = utf8 mid := by
  rw [utf8_append, List.take_left]

/-! ## the loop -/

variable {jsonString : List Char → Except String String} {kind : TokenKind} {fuel : Nat}

namespace Lexer

theorem run_end (h : lexer.bytes[lexer.pos]? = none) :
    run jsonString (fuel + 1) lexer = some (.ok (lexer.push .eof lexer.pos lexer.pos)) := by
  rw [run, h]

theorem run_next {next : Lexer} (hb : lexer.bytes[lexer.pos]? = some b)
    (hstep : lexer.step jsonString b = .ok next) :
    run jsonString (fuel + 1) lexer = run jsonString fuel next := by
  rw [run, hb]
  dsimp only
  rw [hstep]

theorem run_fail {e : Fault ArgentError} (hb : lexer.bytes[lexer.pos]? = some b)
    (hstep : lexer.step jsonString b = .error e) :
    run jsonString (fuel + 1) lexer = some (.error e) := by
  rw [run, hb]
  dsimp only
  rw [hstep]

end Lexer

/-! ## one token on its own -/

/-- the tokens of the text of one token -/
def aloneTokens (text : List Char) (kind : TokenKind) : List Token :=
  if kind = .eof then [⟨.eof, ⟨0, (utf8 text).length⟩⟩]
  else [⟨kind, ⟨0, (utf8 text).length⟩⟩, ⟨.eof, ⟨(utf8 text).length, (utf8 text).length⟩⟩]

/-- a text on its own is one token -/
def Relexes (jsonString : List Char → Except String String) (text : List Char) (kind : TokenKind) :
    Prop := lexArgentSource jsonString text = some (.ok (aloneTokens text kind))

theorem relexes_eof : Relexes jsonString [] .eof := rfl

theorem relexes_of_step (hkind : kind ≠ .eof) (hb : (utf8 mid)[0]? = some b)
    (hstep : Lexer.step jsonString ⟨mid, 0, []⟩ b =
      .ok (Lexer.pushNext ⟨mid, 0, []⟩ kind (utf8 mid).length)) : Relexes jsonString mid kind := by
  have hpos : 0 < (utf8 mid).length := (List.getElem?_eq_some_iff.mp hb).1
  obtain ⟨fuel, hfuel⟩ := Nat.exists_eq_succ_of_ne_zero hpos.ne'
  have hend : (Lexer.pushNext ⟨mid, 0, []⟩ kind (utf8 mid).length).bytes[
      (Lexer.pushNext ⟨mid, 0, []⟩ kind (utf8 mid).length).pos]? = none := by
    show (utf8 mid)[0 + (utf8 mid).length]? = none
    rw [Nat.zero_add, List.getElem?_eq_none_iff]
  have hrun : Lexer.run jsonString ((utf8 mid).length + 1) ⟨mid, 0, []⟩ =
      some (.ok ((Lexer.pushNext ⟨mid, 0, []⟩ kind (utf8 mid).length).push .eof
        (0 + (utf8 mid).length) (0 + (utf8 mid).length))) := by
    have hbyte : (Lexer.bytes ⟨mid, 0, []⟩)[Lexer.pos ⟨mid, 0, []⟩]? = some b := hb
    rw [Lexer.run_next hbyte hstep]
    have hlast := congrArg (fun n => Lexer.run jsonString n
      (Lexer.pushNext ⟨mid, 0, []⟩ kind (utf8 mid).length)) hfuel
    exact hlast.trans (Lexer.run_end hend)
  unfold Relexes lexArgentSource aloneTokens
  rw [if_neg hkind, hrun, Nat.zero_add]
  show some (Except.ok [(⟨kind, ⟨0, 0 + (utf8 mid).length⟩⟩ : Token), _]) = _
  rw [Nat.zero_add]

/-! ## the methods -/

theorem lexNumber_eq (h : lexer.At pre (mid ++ tail))
    (hlen : (utf8 mid).length = numberLength (utf8 (mid ++ tail))) :
    lexer.lexNumber = .ok (lexer.pushNext (.number (String.ofList mid)) (utf8 mid).length) := by
  unfold Lexer.lexNumber
  dsimp only
  rw [h.rest_eq, ← hlen, h.sliceAt_eq]
  rfl

/-- the names that are neither renamed nor reserved -/
def NameAccepted (name : String) : Prop :=
  name ≠ LEGACY_COVENANT_ID ∧ ∀ generated ∈ [RESERVED_GENERATED_PREFIX, RESERVED_GENERATED_TYPE_PREFIX],
    ¬ generated.toList.isPrefixOf name.toList = true

theorem lexIdent_eq (h : lexer.At pre (mid ++ tail))
    (hlen : (utf8 mid).length = spanLength isIdentByte (utf8 (mid ++ tail))) :
    (NameAccepted (String.ofList mid) →
      lexer.lexIdent = .ok (lexer.pushNext (.ident (String.ofList mid)) (utf8 mid).length)) ∧
    (¬ NameAccepted (String.ofList mid) → ∃ e, lexer.lexIdent = fail e) := by
  unfold Lexer.lexIdent
  dsimp only
  rw [h.rest_eq, ← hlen, h.sliceAt_eq, ok_bind]
  refine ⟨fun haccepted => ?_, fun hrejected => ?_⟩
  · rw [if_neg haccepted.1, List.find?_eq_none.mpr haccepted.2]
    rfl
  · by_cases hlegacy : String.ofList mid = LEGACY_COVENANT_ID
    · rw [if_pos hlegacy]
      exact errorAt_eq _ _ _
    · rw [if_neg hlegacy]
      cases hfind : [RESERVED_GENERATED_PREFIX, RESERVED_GENERATED_TYPE_PREFIX].find?
          fun generated => generated.toList.isPrefixOf (String.ofList mid).toList with
      | some generated => exact errorAt_eq _ _ _
      | none => exact absurd ⟨hlegacy, List.find?_eq_none.mp hfind⟩ hrejected

theorem lexString_eq (h : lexer.At pre (mid ++ tail)) {count : Nat}
    (hclose : closeString ((utf8 (mid ++ tail)).drop 1) = .ok count)
    (hlen : (utf8 mid).length = 1 + count) :
    (∀ value, jsonString mid = .ok value →
      lexer.lexString jsonString = .ok (lexer.pushNext (.str value) (utf8 mid).length)) ∧
    ∀ err, jsonString mid = .error err → ∃ e, lexer.lexString jsonString = fail e := by
  unfold Lexer.lexString
  rw [h.rest_eq, hclose]
  dsimp only
  rw [← hlen, h.sliceAt_eq, ok_bind]
  refine ⟨fun value hvalue => ?_, fun err herr => ?_⟩
  · rw [hvalue]
    rfl
  · rw [herr]
    exact errorAt_eq _ _ _

/-- the bytes that a cut leaves out do not matter to what was cut -/
theorem closeString_alone {count : Nat}
    (hclose : closeString ((utf8 (mid ++ tail)).drop 1) = .ok count)
    (hlen : (utf8 mid).length = 1 + count) : closeString ((utf8 mid).drop 1) = .ok count := by
  rw [← take_utf8 mid tail, hlen, List.drop_take, Nat.add_sub_cancel_left]
  exact closeString_take hclose

/-! ## one iteration -/

/-- an iteration fails, skips whitespace or a comment, or reads a token that stands on its own -/
inductive StepOutcome (jsonString : List Char → Except String String) (lexer : Lexer)
    (post : List Char) : Except (Fault ArgentError) Lexer → Prop
  | fails (e : ArgentError) : StepOutcome jsonString lexer post (fail e)
  | skips {mid tail : List Char} (cut : post = mid ++ tail) (nonempty : mid ≠ [])
    (trivia : TriviaItem (utf8 tail) (utf8 mid)) :
    StepOutcome jsonString lexer post (.ok (lexer.advance (utf8 mid).length))
  | pushes {kind : TokenKind} {mid tail : List Char} (cut : post = mid ++ tail) (nonempty : mid ≠ [])
    (relexes : Relexes jsonString mid kind) :
    StepOutcome jsonString lexer post (.ok (lexer.pushNext kind (utf8 mid).length))

theorem ne_nil_of_length {n : Nat} (hlen : (utf8 mid).length = n + 1) : mid ≠ [] := by
  rintro rfl
  cases hlen

theorem getElem?_zero_of_cut (hb : (utf8 (mid ++ tail))[0]? = some b) (hmid : mid ≠ []) :
    (utf8 mid)[0]? = some b := by
  obtain ⟨c, mid, rfl⟩ := List.exists_cons_of_ne_nil hmid
  have hpos := c.utf8Size_pos
  rw [utf8_append, List.getElem?_append_left] at hb
  · exact hb
  · rw [utf8_cons, List.length_append, String.length_utf8EncodeChar]
    omega

theorem StepOutcome.of_errorAt {post : List Char} (byteOffset : Nat) (message : String) :
    StepOutcome jsonString lexer post (lexer.errorAt byteOffset message) := by
  obtain ⟨e, he⟩ := @errorAt_eq Lexer lexer byteOffset message
  rw [he]
  exact .fails e

/-! ### the classes of bytes are apart -/

theorem isSpace_iff : isSpace b = true ↔ b ∈ [' ', '\t', '\r', '\n'].map ascii := by
  unfold isSpace
  simp only [List.any_eq_true, decide_eq_true_eq, List.mem_map, @eq_comm UInt8 b]

theorem lt_of_isBetween {first last : Char} (hlast : ascii last < 128)
    (h : isBetween first last b = true) : b < 128 := by
  unfold isBetween at h
  rw [Bool.and_eq_true, decide_eq_true_eq, decide_eq_true_eq] at h
  exact UInt8.lt_of_le_of_lt h.2 hlast

theorem lt_of_isDigit (h : isDigit b = true) : b < 128 := lt_of_isBetween (by decide) h

theorem lt_of_isHexDigit (h : isHexDigit b = true) : b < 128 := by
  unfold isHexDigit at h
  rw [Bool.or_eq_true, Bool.or_eq_true] at h
  obtain (h | h) | h := h
  · exact lt_of_isDigit h
  · exact lt_of_isBetween (by decide) h
  · exact lt_of_isBetween (by decide) h

theorem lt_of_isDigitOrSeparator (h : isDigitOrSeparator b = true) : b < 128 := by
  unfold isDigitOrSeparator at h
  rw [Bool.or_eq_true, decide_eq_true_eq] at h
  obtain h | rfl := h
  · exact lt_of_isDigit h
  · decide

theorem lt_of_isIdentStart (h : isIdentStart b = true) : b < 128 := by
  unfold isIdentStart at h
  rw [Bool.or_eq_true, Bool.or_eq_true, decide_eq_true_eq] at h
  obtain (h | h) | rfl := h
  · exact lt_of_isBetween (by decide) h
  · exact lt_of_isBetween (by decide) h
  · decide

theorem lt_of_isIdentByte (h : isIdentByte b = true) : b < 128 := by
  unfold isIdentByte at h
  rw [Bool.or_eq_true] at h
  obtain h | h := h
  · exact lt_of_isIdentStart h
  · exact lt_of_isDigit h

theorem numberLength_pos (hb : (utf8 pre)[0]? = some b) (hdigit : isDigit b = true) :
    0 < numberLength (utf8 pre) := by
  have hspan : 0 < spanLength isDigitOrSeparator (utf8 pre) := by
    cases hbytes : utf8 pre with
    | nil =>
      rw [hbytes] at hb
      cases hb
    | cons b' rest =>
      rw [hbytes, List.getElem?_cons_zero, Option.some_inj] at hb
      have hsep : isDigitOrSeparator b' = true := by
        unfold isDigitOrSeparator
        rw [hb, hdigit, Bool.true_or]
      rw [spanLength_cons, if_pos hsep]
      exact Nat.succ_pos _
  unfold numberLength
  dsimp only
  split_ifs
  · omega
  · omega
  · exact hspan

theorem ends_numberLength (text : List Char) : Ends text (numberLength (utf8 text)) := by
  unfold numberLength
  dsimp only
  split_ifs with hhex hexponent
  · refine ends_spanLength (fun _ => lt_of_isHexDigit) ?_
    obtain h | h := hhex.2
    · exact ends_after_ascii h (by decide)
    · exact ends_after_ascii h (by decide)
  · refine ends_spanLength (fun _ => lt_of_isDigitOrSeparator) ?_
    obtain h | h := hexponent
    · exact ends_after_ascii h (by decide)
    · exact ends_after_ascii h (by decide)
  · have hends := ends_spanLength (p := isDigitOrSeparator) (fun _ => lt_of_isDigitOrSeparator)
      (@ends_zero text)
    rwa [Nat.zero_add, List.drop_zero] at hends

theorem exists_cons_cons {α : Type} {l : List α} {a a' : α} (h : l[0]? = some a)
    (h' : l[1]? = some a') : ∃ rest, l = a :: a' :: rest := by
  cases l with
  | nil => cases h
  | cons x l =>
    cases l with
    | nil => cases h'
    | cons y l =>
      cases h
      cases h'
      exact ⟨l, rfl⟩

theorem not_isSpace {q : UInt8 → Bool}
    (hq : ([' ', '\t', '\r', '\n'].all fun c => !q (ascii c)) = true) (h : q b = true) :
    ¬ isSpace b = true := by
  intro hspace
  obtain ⟨c, hc, rfl⟩ := List.mem_map.mp (isSpace_iff.mp hspace)
  have hnot := List.all_eq_true.mp hq c hc
  rw [h] at hnot
  cases hnot

theorem ne_of_class {q : UInt8 → Bool} {c : Char} (hq : q (ascii c) = false) (h : q b = true) :
    b ≠ ascii c := by
  rintro rfl
  rw [hq] at h
  cases h

theorem not_isDigit_of_isIdentStart (h : isIdentStart b = true) : ¬ isDigit b = true := by
  intro hdigit
  unfold isDigit at hdigit
  unfold isIdentStart at h
  unfold isBetween at h hdigit
  rw [Bool.and_eq_true, decide_eq_true_eq, decide_eq_true_eq, UInt8.le_iff_toNat_le,
    UInt8.le_iff_toNat_le] at hdigit
  have hlow : 48 ≤ b.toNat := hdigit.1
  have hhigh : b.toNat ≤ 57 := hdigit.2
  rw [Bool.or_eq_true, Bool.or_eq_true, Bool.and_eq_true, Bool.and_eq_true, decide_eq_true_eq,
    decide_eq_true_eq, decide_eq_true_eq, decide_eq_true_eq, decide_eq_true_eq,
    UInt8.le_iff_toNat_le, UInt8.le_iff_toNat_le] at h
  obtain (h | h) | rfl := h
  · have hlower : 97 ≤ b.toNat := h.1
    omega
  · have hupper : 65 ≤ b.toNat := h.1
    omega
  · exact absurd hhigh (by decide)

namespace Lexer

theorem step_string : lexer.step jsonString (ascii '"') = lexer.lexString jsonString := by
  unfold step
  rw [if_neg (by decide), if_neg fun h => absurd h.1 (by decide),
    if_neg fun h => absurd h.1 (by decide), if_pos rfl]

theorem step_number (h : isDigit b = true) : lexer.step jsonString b = lexer.lexNumber := by
  have hslash : b ≠ ascii '/' := ne_of_class (by decide) h
  unfold step
  rw [if_neg (not_isSpace (by decide) h), if_neg fun h => hslash h.1, if_neg fun h => hslash h.1,
    if_neg (ne_of_class (by decide) h), if_pos h]

theorem step_ident (h : isIdentStart b = true) : lexer.step jsonString b = lexer.lexIdent := by
  have hslash : b ≠ ascii '/' := ne_of_class (by decide) h
  unfold step
  rw [if_neg (not_isSpace (by decide) h), if_neg fun h => hslash h.1, if_neg fun h => hslash h.1,
    if_neg (ne_of_class (by decide) h), if_neg (not_isDigit_of_isIdentStart h), if_pos h]

theorem step_arrow (h : lexer.peekByte 1 = some (ascii '>')) :
    lexer.step jsonString (ascii '-') = .ok (lexer.pushNext .arrow 2) := by
  unfold step
  rw [if_neg (by decide), if_neg fun h => absurd h.1 (by decide),
    if_neg fun h => absurd h.1 (by decide), if_neg (by decide), if_neg (by decide),
    if_neg (by decide), if_pos ⟨rfl, h⟩]

theorem step_symbol (hsymbol : isSymbol b = true) (hspace : ¬ isSpace b = true)
    (hquote : b ≠ ascii '"') (hdigit : ¬ isDigit b = true) (hident : ¬ isIdentStart b = true)
    (hlast : lexer.peekByte 1 = none) :
    lexer.step jsonString b = .ok (lexer.pushNext (.symbol (Char.ofNat b.toNat)) 1) := by
  unfold step
  rw [hlast, if_neg hspace, if_neg fun h => (nomatch h.2), if_neg fun h => (nomatch h.2),
    if_neg hquote, if_neg hdigit, if_neg hident, if_neg fun h => (nomatch h.2), if_pos hsymbol]

end Lexer

/-! ### outcomes -/

theorem outcome_number {post : List Char} (h : lexer.At pre post) (hb : (utf8 post)[0]? = some b)
    (hdigit : isDigit b = true) : StepOutcome jsonString lexer post lexer.lexNumber := by
  have hpos := numberLength_pos hb hdigit
  obtain ⟨mid, tail, rfl, hlen⟩ := ends_numberLength post
  have hmid : mid ≠ [] := ne_nil_of_length (hlen.trans (Nat.succ_pred_eq_of_pos hpos).symm)
  have halone : (utf8 mid).length = numberLength (utf8 (mid ++ [])) := by
    have htake := take_utf8 mid tail
    rw [hlen] at htake
    rw [List.append_nil, ← htake, numberLength_take, htake, hlen]
  rw [lexNumber_eq h hlen]
  refine .pushes rfl hmid (relexes_of_step nofun (getElem?_zero_of_cut hb hmid) ?_)
  rw [Lexer.step_number hdigit]
  exact lexNumber_eq (.alone mid) halone

theorem outcome_ident {post : List Char} (h : lexer.At pre post) (hb : (utf8 post)[0]? = some b)
    (hident : isIdentStart b = true) : StepOutcome jsonString lexer post lexer.lexIdent := by
  have hends := ends_spanLength (p := isIdentByte) (fun _ => lt_of_isIdentByte) (@ends_zero post)
  rw [Nat.zero_add, List.drop_zero] at hends
  obtain ⟨mid, tail, rfl, hlen⟩ := hends
  have hmid : mid ≠ [] := by
    rintro rfl
    rw [List.nil_append] at hlen hb
    rw [show (utf8 []).length = 0 from rfl] at hlen
    rw [hlen] at hb
    have hstop := spanLength_stop hb
    unfold isIdentByte at hstop
    rw [hident] at hstop
    cases hstop
  have halone : (utf8 mid).length = spanLength isIdentByte (utf8 (mid ++ [])) := by
    rw [List.append_nil, ← take_utf8 mid tail, hlen, spanLength_take (Nat.le_refl _), ← hlen,
      take_utf8 mid tail]
  by_cases haccepted : NameAccepted (String.ofList mid)
  · rw [(lexIdent_eq h hlen).1 haccepted]
    refine .pushes rfl hmid (relexes_of_step nofun (getElem?_zero_of_cut hb hmid) ?_)
    rw [Lexer.step_ident hident]
    exact (lexIdent_eq (.alone mid) halone).1 haccepted
  · obtain ⟨e, he⟩ := (lexIdent_eq h hlen).2 haccepted
    rw [he]
    exact .fails e

theorem outcome_string {post : List Char} (h : lexer.At pre post)
    (hb : (utf8 post)[0]? = some (ascii '"')) :
    StepOutcome jsonString lexer post (lexer.lexString jsonString) := by
  cases hclose : closeString ((utf8 post).drop 1) with
  | error e =>
    unfold Lexer.lexString
    rw [h.rest_eq, hclose]
    cases e with
    | unterminated => exact .of_errorAt _ _
    | unterminatedEscape => exact .of_errorAt _ _
  | ok count =>
    obtain ⟨m, hm, hlast⟩ := closeString_last hclose
    rw [List.getElem?_drop] at hlast
    have hends := ends_after_ascii hlast (by decide)
    rw [show 1 + m + 1 = 1 + count by omega] at hends
    obtain ⟨mid, tail, rfl, hlen⟩ := hends
    have hmid : mid ≠ [] := ne_nil_of_length (hlen.trans (Nat.add_comm 1 count))
    have halone : closeString ((utf8 (mid ++ [])).drop 1) = .ok count := by
      rw [List.append_nil]
      exact closeString_alone hclose hlen
    cases hjson : jsonString mid with
    | error err =>
      obtain ⟨e, he⟩ := (lexString_eq h hclose hlen).2 err hjson
      rw [he]
      exact .fails e
    | ok value =>
      rw [(lexString_eq h hclose hlen).1 value hjson]
      refine .pushes rfl hmid (relexes_of_step nofun (getElem?_zero_of_cut hb hmid) ?_)
      rw [Lexer.step_string]
      exact (lexString_eq (.alone mid) halone hlen).1 value hjson

theorem utf8_eq_take {n : Nat} (hlen : (utf8 mid).length = n) :
    utf8 mid = (utf8 (mid ++ tail)).take n := by
  rw [← hlen, take_utf8]

theorem cut_one {post : List Char} (hb : (utf8 post)[0]? = some b) (hascii : b < 128) :
    ∃ mid tail, post = mid ++ tail ∧ (utf8 mid).length = 1 ∧ utf8 mid = [b] := by
  obtain ⟨mid, tail, rfl, hlen⟩ := ends_after_ascii hb hascii
  refine ⟨mid, tail, rfl, hlen, ?_⟩
  rw [@utf8_eq_take mid tail _ hlen]
  cases hbytes : utf8 (mid ++ tail) with
  | nil =>
    rw [hbytes] at hb
    cases hb
  | cons b' rest =>
    rw [hbytes, List.getElem?_cons_zero, Option.some_inj] at hb
    rw [hb]
    rfl

theorem outcome_space {post : List Char} (hb : (utf8 post)[0]? = some b)
    (hspace : isSpace b = true) : StepOutcome jsonString lexer post (.ok (lexer.advance 1)) := by
  have hmem := isSpace_iff.mp hspace
  have hascii : b < 128 := by
    obtain ⟨c, hc, rfl⟩ := List.mem_map.mp hmem
    have hall : ([' ', '\t', '\r', '\n'].all fun c => decide (ascii c < 128)) = true := by decide
    exact of_decide_eq_true (List.all_eq_true.mp hall c hc)
  obtain ⟨mid, tail, rfl, hlen, hbytes⟩ := cut_one hb hascii
  rw [← hlen]
  refine .skips rfl (ne_nil_of_length hlen) ?_
  rw [hbytes]
  exact .space hmem

theorem outcome_line {post : List Char} (h : lexer.At pre post)
    (hb : (utf8 post)[0]? = some (ascii '/')) (hnext : (utf8 post)[1]? = some (ascii '/')) :
    StepOutcome jsonString lexer post (.ok lexer.skipLineComment) := by
  obtain ⟨rest, hrest⟩ := exists_cons_cons hb hnext
  generalize hcount : spanLength (fun b => b != ascii '\n') (utf8 post) = count
  have hlong : count = spanLength (fun b => b != ascii '\n') rest + 2 := by
    rw [← hcount, hrest, spanLength_cons, if_pos (by decide), spanLength_cons, if_pos (by decide)]
  have hends : Ends post count ∧
      ((utf8 post)[count]? = none ∨ (utf8 post)[count]? = some (ascii '\n')) := by
    cases hstop : (utf8 post)[count]? with
    | none =>
      have hle := spanLength_le (p := fun b => b != ascii '\n') (utf8 post)
      rw [List.getElem?_eq_none_iff] at hstop
      rw [hcount] at hle
      rw [show count = (utf8 post).length by omega]
      exact ⟨ends_length, .inl rfl⟩
    | some b =>
      have hnewline : b = ascii '\n' := by
        rw [← hcount] at hstop
        have hne := spanLength_stop hstop
        rwa [bne_eq_false_iff_eq] at hne
      rw [hnewline] at hstop ⊢
      exact ⟨ends_of_ascii hstop (by decide), .inr rfl⟩
  obtain ⟨⟨mid, tail, rfl, hlen⟩, hstop⟩ := hends
  have hskip : lexer.skipLineComment = lexer.advance (utf8 mid).length := by
    unfold Lexer.skipLineComment
    rw [h.rest_eq, hcount, hlen]
  rw [hskip]
  refine .skips rfl (ne_nil_of_length (hlen.trans hlong)) ?_
  have htail : (utf8 tail).head? = (utf8 (mid ++ tail))[count]? := by
    rw [utf8_append, List.getElem?_append_right (by omega), hlen, Nat.sub_self,
      List.head?_eq_getElem?]
  have hmid : utf8 mid = ascii '/' :: ascii '/' ::
      rest.take (spanLength (fun b => b != ascii '\n') rest) := by
    rw [@utf8_eq_take mid tail _ (hlen.trans hlong), hrest]
    rfl
  rw [hmid]
  refine .line (fun hmem => ?_) (htail ▸ hstop)
  have hne := mem_take_spanLength hmem
  exact absurd rfl (bne_iff_ne.mp hne)

theorem outcome_block {post : List Char} (h : lexer.At pre post)
    (hb : (utf8 post)[0]? = some (ascii '/')) (hnext : (utf8 post)[1]? = some (ascii '*')) :
    StepOutcome jsonString lexer post lexer.skipBlockComment := by
  obtain ⟨rest, hrest⟩ := exists_cons_cons hb hnext
  unfold Lexer.skipBlockComment
  rw [h.rest_eq]
  cases hclose : closeBlock 1 ((utf8 post).drop 2) with
  | none => exact .of_errorAt _ _
  | some count =>
    obtain ⟨m, hm, hlast⟩ := closeBlock_last hclose
    rw [List.getElem?_drop] at hlast
    have hends := ends_after_ascii hlast (by decide)
    rw [show 2 + m + 1 = 2 + count by omega] at hends
    obtain ⟨mid, tail, rfl, hlen⟩ := hends
    dsimp only
    rw [← hlen]
    refine .skips rfl (ne_nil_of_length (hlen.trans (Nat.add_comm 2 count))) ?_
    have hmid : utf8 mid = ascii '/' :: ascii '*' :: ((utf8 (mid ++ tail)).drop 2).take count := by
      rw [@utf8_eq_take mid tail _ (hlen.trans (Nat.add_comm 2 count)), hrest]
      rfl
    rw [hmid]
    exact .block (closeBlock_inside hclose Nat.one_pos)

theorem outcome_arrow {post : List Char} (hb : (utf8 post)[0]? = some (ascii '-'))
    (hnext : (utf8 post)[1]? = some (ascii '>')) :
    StepOutcome jsonString lexer post (.ok (lexer.pushNext .arrow 2)) := by
  obtain ⟨mid, tail, rfl, hlen⟩ := ends_after_ascii hnext (by decide)
  have hmid : mid ≠ [] := ne_nil_of_length hlen
  have hpeek : Lexer.peekByte ⟨mid, 0, []⟩ 1 = some (ascii '>') := by
    show (utf8 mid)[0 + 1]? = _
    rwa [utf8_append, List.getElem?_append_left (by omega)] at hnext
  have hrelexes : Relexes jsonString mid .arrow := by
    refine relexes_of_step nofun (getElem?_zero_of_cut hb hmid) ?_
    rw [Lexer.step_arrow hpeek, hlen]
  have hpushes : StepOutcome jsonString lexer (mid ++ tail)
    (.ok (lexer.pushNext .arrow (utf8 mid).length)) := .pushes rfl hmid hrelexes
  rwa [hlen] at hpushes

theorem outcome_symbol {post : List Char} (hb : (utf8 post)[0]? = some b)
    (hsymbol : isSymbol b = true) (hspace : ¬ isSpace b = true) (hquote : b ≠ ascii '"')
    (hdigit : ¬ isDigit b = true) (hident : ¬ isIdentStart b = true) :
    StepOutcome jsonString lexer post
      (.ok (lexer.pushNext (.symbol (Char.ofNat b.toNat)) 1)) := by
  have hascii : b < 128 := by
    unfold isSymbol at hsymbol
    obtain ⟨c, hc, hbc⟩ := List.any_eq_true.mp hsymbol
    rw [decide_eq_true_eq] at hbc
    have hall : (['{', '}', '(', ')', '[', ']', ';', ':', ',', '|', '&', '^', '!', '=', '+', '-', '*',
        '/', '%', '<', '>', '.'].all fun c => decide (ascii c < 128)) = true := by decide
    rw [hbc]
    exact of_decide_eq_true (List.all_eq_true.mp hall c hc)
  obtain ⟨mid, tail, rfl, hlen, hbytes⟩ := cut_one hb hascii
  have hmid : mid ≠ [] := ne_nil_of_length hlen
  have hlast : Lexer.peekByte ⟨mid, 0, []⟩ 1 = none := by
    show (utf8 mid)[0 + 1]? = none
    rw [hbytes]
    rfl
  have hrelexes : Relexes jsonString mid (.symbol (Char.ofNat b.toNat)) := by
    refine relexes_of_step nofun (getElem?_zero_of_cut hb hmid) ?_
    rw [Lexer.step_symbol hsymbol hspace hquote hdigit hident hlast, hlen]
  have hpushes : StepOutcome jsonString lexer (mid ++ tail) (.ok (lexer.pushNext
    (.symbol (Char.ofNat b.toNat)) (utf8 mid).length)) := .pushes rfl hmid hrelexes
  rwa [hlen] at hpushes

/-- the rest of the text can be cut out, and has a first character -/
theorem outcome_unexpected {post : List Char} (h : lexer.At pre post)
    (hb : (utf8 post)[0]? = some b) :
    StepOutcome jsonString lexer post lexer.unexpectedCharacter := by
  have hpost : post ≠ [] := by
    rintro rfl
    cases hb
  obtain ⟨c, post, rfl⟩ := List.exists_cons_of_ne_nil hpost
  have hall : lexer.At pre ((c :: post) ++ []) := by
    rw [List.append_nil]
    exact h
  have hslice := hall.sliceAt_eq
  have hlen : lexer.pos + (utf8 (c :: post)).length = lexer.bytes.length := by
    unfold Lexer.bytes
    rw [h.source, utf8_append, List.length_append, h.pos]
  rw [hlen] at hslice
  unfold Lexer.unexpectedCharacter
  rw [hslice]
  exact .of_errorAt _ _

/-- **An iteration fails without a panic, or reads characters: of trivia, or of a token that its text
yields on its own.** -/
theorem Lexer.step_outcome {post : List Char} (h : lexer.At pre post)
    (hb : (utf8 post)[0]? = some b) :
    StepOutcome jsonString lexer post (lexer.step jsonString b) := by
  have hpeek : lexer.peekByte 1 = (utf8 post)[1]? := h.byte_eq 1
  unfold Lexer.step
  rw [hpeek]
  split_ifs with hspace hline hblock hquote hdigit hident harrow hsymbol
  · exact outcome_space hb hspace
  · exact outcome_line h (hline.1 ▸ hb) hline.2
  · exact outcome_block h (hblock.1 ▸ hb) hblock.2
  · exact outcome_string h (hquote ▸ hb)
  · exact outcome_number h hb hdigit
  · exact outcome_ident h hb hident
  · exact outcome_arrow (harrow.1 ▸ hb) harrow.2
  · exact outcome_symbol hb hsymbol hspace hquote hdigit hident
  · exact outcome_unexpected h hb

end

/-! ## the tiling -/

section
variable {jsonString : List Char → Except String String} {source : List Char}
  {lexer : Lexer} {pre post mid tail : List Char} {tokens : List Token}

/-- only whitespace and comments stand between two spans -/
def Gap (source : List Char) (first second : Span) : Prop :=
  first.stop ≤ second.start ∧
    Trivia ((utf8 source).drop second.start)
      (((utf8 source).drop first.stop).take (second.start - first.stop))

/-- the tokens of a text stand in order, disjoint, with trivia between them, up to its end; each is
what its own text yields -/
structure Tiles (jsonString : List Char → Except String String) (source : List Char)
    (tokens : List Token) : Prop where
  ordered : tokens.Pairwise fun a b => a.span.stop ≤ b.span.start
  gaps : ((⟨0, 0⟩ : Span) :: tokens.map (·.span)).IsChain (Gap source)
  last : tokens.getLast? = some ⟨.eof, ⟨(utf8 source).length, (utf8 source).length⟩⟩
  texts : ∀ token ∈ tokens, ∃ text, slice source token.span.start token.span.stop = some text ∧
    Relexes jsonString text token.kind

/-- the tokens that are read from a position on -/
structure TilesFrom (jsonString : List Char → Except String String) (source : List Char)
    (position : Nat) (tokens : List Token) : Prop where
  after : ∀ token ∈ tokens, position ≤ token.span.start
  ordered : tokens.Pairwise fun a b => a.span.stop ≤ b.span.start
  gaps : ((⟨position, position⟩ : Span) :: tokens.map (·.span)).IsChain (Gap source)
  last : tokens.getLast? = some ⟨.eof, ⟨(utf8 source).length, (utf8 source).length⟩⟩
  texts : ∀ token ∈ tokens, ∃ text, slice source token.span.start token.span.stop = some text ∧
    Relexes jsonString text token.kind

theorem Gap.cons {first second : Span} (h : Gap (pre ++ (mid ++ tail)) first second)
    (hfirst : first.stop = (utf8 pre).length + (utf8 mid).length)
    (htrivia : TriviaItem (utf8 tail) (utf8 mid)) {start : Nat} :
    Gap (pre ++ (mid ++ tail)) ⟨start, (utf8 pre).length⟩ second := by
  obtain ⟨hle, hgap⟩ := h
  rw [hfirst] at hle hgap
  refine ⟨by show (utf8 pre).length ≤ _; omega, ?_⟩
  have htail : (utf8 (pre ++ (mid ++ tail))).drop ((utf8 pre).length + (utf8 mid).length) =
      utf8 tail := by
    rw [utf8_append, utf8_append, ← List.drop_drop, List.drop_left, List.drop_left]
  have hdrop : (utf8 (pre ++ (mid ++ tail))).drop (utf8 pre).length = utf8 mid ++ utf8 tail := by
    rw [utf8_append, List.drop_left, utf8_append]
  rw [htail] at hgap
  generalize hwidth : second.start - ((utf8 pre).length + (utf8 mid).length) = width at hgap
  show Trivia _ (((utf8 (pre ++ (mid ++ tail))).drop (utf8 pre).length).take
    (second.start - (utf8 pre).length))
  rw [hdrop, show second.start - (utf8 pre).length = (utf8 mid).length + width by omega,
    List.take_length_add_append]
  refine .cons ?_ hgap
  have hfollowing : (utf8 (pre ++ (mid ++ tail))).drop second.start = (utf8 tail).drop width := by
    rw [show second.start = (utf8 pre).length + (utf8 mid).length + width by omega,
      ← List.drop_drop, htail]
  rw [hfollowing, List.take_append_drop]
  exact htrivia

theorem Gap.refl (source : List Char) (first : Nat) (position stop : Nat) :
    Gap source ⟨first, position⟩ ⟨position, stop⟩ := by
  refine ⟨Nat.le_refl _, ?_⟩
  show Trivia _ (((utf8 source).drop position).take (position - position))
  rw [Nat.sub_self, List.take_zero]
  exact .nil

theorem TilesFrom.skip (h : TilesFrom jsonString (pre ++ (mid ++ tail))
      ((utf8 pre).length + (utf8 mid).length) tokens)
    (htrivia : TriviaItem (utf8 tail) (utf8 mid)) :
    TilesFrom jsonString (pre ++ (mid ++ tail)) (utf8 pre).length tokens where
  after := fun token htoken => (Nat.le_add_right _ _).trans (h.after token htoken)
  ordered := h.ordered
  gaps := by
    have hgaps := h.gaps
    cases hspans : tokens.map (·.span) with
    | nil => exact .singleton _
    | cons span spans =>
      rw [hspans, List.isChain_cons_cons] at hgaps
      exact .cons_cons (hgaps.1.cons rfl htrivia) hgaps.2
  last := h.last
  texts := h.texts

theorem TilesFrom.push {kind : TokenKind} (h : TilesFrom jsonString (pre ++ (mid ++ tail))
      ((utf8 pre).length + (utf8 mid).length) tokens)
    (hrelexes : Relexes jsonString mid kind) :
    TilesFrom jsonString (pre ++ (mid ++ tail)) (utf8 pre).length
      (⟨kind, ⟨(utf8 pre).length, (utf8 pre).length + (utf8 mid).length⟩⟩ :: tokens) where
  after := by
    intro token htoken
    obtain rfl | htoken := List.mem_cons.mp htoken
    · exact Nat.le_refl _
    · exact (Nat.le_add_right _ _).trans (h.after token htoken)
  ordered := List.pairwise_cons.mpr ⟨fun token htoken => h.after token htoken, h.ordered⟩
  gaps := by
    have hgaps := h.gaps
    rw [List.map_cons]
    refine .cons_cons (Gap.refl _ _ _ _) ?_
    cases hspans : tokens.map (·.span) with
    | nil => exact .singleton _
    | cons span spans =>
      rw [hspans, List.isChain_cons_cons] at hgaps
      exact .cons_cons hgaps.1 hgaps.2
  last := by
    cases htokens : tokens with
    | nil =>
      have hlast := h.last
      rw [htokens] at hlast
      cases hlast
    | cons token rest =>
      rw [List.getLast?_cons_cons, ← htokens]
      exact h.last
  texts := by
    intro token htoken
    obtain rfl | htoken := List.mem_cons.mp htoken
    · exact ⟨mid, slice_append pre mid tail, hrelexes⟩
    · exact h.texts token htoken

theorem TilesFrom.eof (source : List Char) : TilesFrom jsonString source (utf8 source).length
    [⟨.eof, ⟨(utf8 source).length, (utf8 source).length⟩⟩] where
  after := by
    intro token htoken
    rw [List.mem_singleton.mp htoken]
  ordered := List.pairwise_singleton _ _
  gaps := .cons_cons (Gap.refl _ _ _ _) (.singleton _)
  last := rfl
  texts := by
    intro token htoken
    rw [List.mem_singleton.mp htoken]
    refine ⟨[], ?_, relexes_eof⟩
    have hslice := slice_append source [] []
    rwa [List.append_nil, List.append_nil] at hslice

theorem length_tail_lt {fuel : Nat} (hmid : mid ≠ [])
    (hfuel : (utf8 (mid ++ tail)).length < fuel + 1) : (utf8 tail).length < fuel := by
  obtain ⟨c, mid, rfl⟩ := List.exists_cons_of_ne_nil hmid
  have hpos := c.utf8Size_pos
  rw [utf8_append, utf8_cons, List.length_append, List.length_append,
    String.length_utf8EncodeChar] at hfuel
  omega

/-- enough iterations end the scan, without a panic, and read the rest of the text -/
theorem Lexer.run_tiles {fuel : Nat} (h : lexer.At pre post) (hfuel : (utf8 post).length < fuel) :
    ∃ result, lexer.run jsonString fuel = some result ∧ NeverPanics result ∧
      ∀ final, result = .ok final → ∃ tokens, final.tokens = lexer.tokens ++ tokens ∧
        TilesFrom jsonString lexer.source lexer.pos tokens := by
  induction fuel generalizing lexer pre post with
  | zero => exact absurd hfuel (Nat.not_lt_zero _)
  | succ fuel ih =>
    have hbyte : lexer.bytes[lexer.pos]? = (utf8 post)[0]? := h.byte_eq 0
    cases hb : (utf8 post)[0]? with
    | none =>
      refine ⟨_, Lexer.run_end (hbyte.trans hb), Avoids.ok _, fun final hfinal => ?_⟩
      rw [← Except.ok.inj hfinal]
      refine ⟨_, rfl, ?_⟩
      have hpos : lexer.pos = (utf8 lexer.source).length := by
        rw [List.getElem?_eq_none_iff] at hb
        rw [h.source, utf8_append, List.length_append, h.pos]
        omega
      rw [hpos]
      exact .eof _
    | some b =>
      have houtcome : StepOutcome jsonString lexer post (lexer.step jsonString b) := step_outcome h hb
      generalize hstep : lexer.step jsonString b = result at houtcome
      cases houtcome with
      | fails e =>
        refine ⟨_, Lexer.run_fail (hbyte.trans hb) hstep, Avoids.fail e, fun final hfinal => ?_⟩
        cases hfinal
      | @skips mid tail hcut hnonempty htrivia =>
        rw [hcut] at h hfuel
        rw [Lexer.run_next (hbyte.trans hb) hstep]
        obtain ⟨result, hrun, hpanics, htiles⟩ := ih h.advance (length_tail_lt hnonempty hfuel)
        refine ⟨result, hrun, hpanics, fun final hfinal => ?_⟩
        obtain ⟨tokens, htokens, htiled⟩ := htiles final hfinal
        refine ⟨tokens, htokens, ?_⟩
        have hfrom : TilesFrom jsonString lexer.source (lexer.pos + (utf8 mid).length) tokens := htiled
        rw [h.source, ← h.pos] at hfrom ⊢
        exact hfrom.skip htrivia
      | @pushes kind mid tail hcut hnonempty hrelexes =>
        rw [hcut] at h hfuel
        rw [Lexer.run_next (hbyte.trans hb) hstep]
        have hnext : (lexer.pushNext kind (utf8 mid).length).At (pre ++ mid) tail :=
          ⟨h.advance.source, h.advance.pos⟩
        obtain ⟨result, hrun, hpanics, htiles⟩ := ih hnext (length_tail_lt hnonempty hfuel)
        refine ⟨result, hrun, hpanics, fun final hfinal => ?_⟩
        obtain ⟨tokens, htokens, htiled⟩ := htiles final hfinal
        have hpushed : (lexer.pushNext kind (utf8 mid).length).tokens =
          lexer.tokens ++ [⟨kind, ⟨lexer.pos, lexer.pos + (utf8 mid).length⟩⟩] := rfl
        refine ⟨_, by rw [htokens, hpushed, List.append_assoc], ?_⟩
        have hfrom : TilesFrom jsonString lexer.source (lexer.pos + (utf8 mid).length) tokens := htiled
        rw [h.source, ← h.pos] at hfrom ⊢
        exact hfrom.push hrelexes

/-- **For every text the scanner ends, without a panic, in an error or in tokens that tile the
text.** -/
theorem lexArgentSource_tiles (jsonString : List Char → Except String String)
    (source : List Char) : ∃ result, lexArgentSource jsonString source = some result ∧
      NeverPanics result ∧ ∀ tokens, result = .ok tokens → Tiles jsonString source tokens := by
  have hat : Lexer.At ⟨source, 0, []⟩ [] source := ⟨rfl, rfl⟩
  obtain ⟨result, hrun, hpanics, htiles⟩ := Lexer.run_tiles hat (Nat.lt_succ_self _)
  refine ⟨result.map Lexer.tokens, ?_, ?_, fun tokens htokens => ?_⟩
  · unfold lexArgentSource
    rw [hrun]
    rfl
  · intro message hmessage
    cases result with
    | error e =>
      cases hmessage
      exact hpanics message rfl
    | ok final => cases hmessage
  · obtain ⟨final, hfinal, rfl⟩ := map_eq_ok htokens
    obtain ⟨tokens, htokens, htiled⟩ := htiles final hfinal
    rw [htokens]
    exact ⟨htiled.ordered, htiled.gaps, htiled.last, htiled.texts⟩

end

/-- a text with a nested comment around a character of two bytes -/
def commented : List Char := "f /* /* é */ */ -> 0x1_2".toList

def quoted (text : List Char) : Except String String := .ok (String.ofList text)

theorem commented_lexes : (lexArgentSource quoted commented).bind Except.toOption = some
    [⟨.ident "f", ⟨0, 1⟩⟩, ⟨.arrow, ⟨17, 19⟩⟩, ⟨.number "0x1", ⟨20, 23⟩⟩, ⟨.ident "_2", ⟨23, 25⟩⟩,
      ⟨.eof, ⟨25, 25⟩⟩] := by decide +kernel

theorem lexArgentSource_tiles_commented : Tiles quoted commented
    [⟨.ident "f", ⟨0, 1⟩⟩, ⟨.arrow, ⟨17, 19⟩⟩, ⟨.number "0x1", ⟨20, 23⟩⟩, ⟨.ident "_2", ⟨23, 25⟩⟩,
      ⟨.eof, ⟨25, 25⟩⟩] := by
  obtain ⟨result, hlex, -, htiles⟩ := lexArgentSource_tiles quoted commented
  have hresult := commented_lexes
  rw [hlex, Option.bind_some] at hresult
  cases result with
  | error e => cases hresult
  | ok tokens => exact htiles _ (congrArg Except.ok (Option.some_inj.mp hresult))

end Argent.Syntax
