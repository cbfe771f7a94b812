import Mathlib.Data.String.Basic
import Mathlib.Tactic.Common

/-!
# Names

`compiler/naming.rs` and the generated names of `compiler/model/layout.rs`.

* `isIdentifier`, `toSnake`    source identifiers and their snake case;
* `routeFamilyId`              the identity of a route family: its state and its representative;
* `routeFamilyId_inj`          **two families of one identity have one representative suffix**;
* `template_ne_table`          the kinds of generated names are apart.
-/

set_option linter.unusedSectionVars false

namespace Argent.Model

/-! ## numbers -/

theorem toString_injective {m n : Nat} (h : toString m = toString n) : m = n := by
  have hdigits : Nat.toDigits 10 m = Nat.toDigits 10 n := by
    rw [← Nat.toList_repr, ← Nat.toList_repr, ← Nat.toString_eq_repr, ← Nat.toString_eq_repr, h]
  rw [← Nat.ofDigitChars_toDigits (n := m) (by decide : 1 < 10) le_rfl, hdigits,
    Nat.ofDigitChars_toDigits (by decide) le_rfl]

/-! ## source names -/

def isIdentifierChar (ch : Char) : Bool := ch.isAlphanum || ch == '_'

def isIdentifier (input : String) : Bool :=
  match input.toList with
  | [] => false
  | first :: chars => (first.isAlpha || first == '_') && (first :: chars).all isIdentifierChar

/-- whether an upper-case character starts a word, by its neighbours -/
def startsNewWord (prev next : Option Char) : Bool :=
  match prev with
  | none => false
  | some prev => prev != '_' && (prev.isLower || prev.isDigit || next.any Char.isLower)

/-- the loop of `to_snake`: `out` is written, `prev` was read last -/
def toSnakeFrom (out : List Char) (prev : Option Char) : List Char → List Char
  | [] => out
  | ch :: chars =>
    if ch.isUpper then
      let out :=
        if startsNewWord prev chars.head? && out.getLast? != some '_' then out ++ ['_'] else out
      toSnakeFrom (out ++ [ch.toLower]) (some ch) chars
    else toSnakeFrom (out ++ [ch]) (some ch) chars

/-- convert a source name to snake case while preserving acronym runs -/
def toSnake (input : String) : String := String.ofList (toSnakeFrom [] none input.toList)

example : toSnake "HTTPServer2Go_Now" = "http_server2_go_now" := by decide +kernel

theorem isLower_toLower {ch : Char} (h : ch.isUpper = true) : ch.toLower.isLower = true := by
  unfold Char.isUpper at h
  unfold Char.toLower Char.isLower
  rw [decide_eq_true_eq] at h
  rw [dif_pos h]
  simp only [ge_iff_le, UInt32.le_iff_toNat_le, UInt32.toNat_add] at h ⊢
  simp at h ⊢
  omega

theorem isIdentifierChar_toLower {ch : Char} (h : ch.isUpper = true) :
    isIdentifierChar ch.toLower = true := by
  unfold isIdentifierChar Char.isAlphanum Char.isAlpha
  rw [isLower_toLower h, Bool.or_true, Bool.true_or, Bool.true_or]

/-- what holds of an underscore, of lowered characters and of the others that are read holds of what
is written -/
theorem forall_toSnakeFrom {P : Char → Prop} (hunderscore : P '_')
    (hlower : ∀ ch : Char, ch.isUpper = true → P ch.toLower) {chars : List Char} :
    ∀ {out : List Char} {prev : Option Char}, (∀ ch ∈ out, P ch) →
      (∀ ch ∈ chars, ch.isUpper = false → P ch) → ∀ ch ∈ toSnakeFrom out prev chars, P ch := by
  induction chars with
  | nil => exact fun hout _ => hout
  | cons c chars ih =>
    intro out prev hout hin
    have hrest : ∀ ch ∈ chars, ch.isUpper = false → P ch :=
      fun ch h => hin ch (List.mem_cons_of_mem _ h)
    have hpush : ∀ {l : List Char} {d : Char}, (∀ ch ∈ l, P ch) → P d → ∀ ch ∈ l ++ [d], P ch := by
      intro l d hl hd ch hch
      obtain hch | hch := List.mem_append.mp hch
      · exact hl ch hch
      · rwa [List.mem_singleton.mp hch]
    unfold toSnakeFrom
    split
    · rename_i hupper
      refine ih (hpush ?_ (hlower c hupper)) hrest
      split
      · exact hpush hout hunderscore
      · exact hout
    · rename_i hkeep
      exact ih (hpush hout (hin c List.mem_cons_self (Bool.eq_false_iff.mpr hkeep))) hrest

theorem forall_toSnake {P : Char → Prop} (hunderscore : P '_')
    (hlower : ∀ ch : Char, ch.isUpper = true → P ch.toLower) {input : String}
    (hin : ∀ ch ∈ input.toList, ch.isUpper = false → P ch) :
    ∀ ch ∈ (toSnake input).toList, P ch := by
  unfold toSnake
  rw [String.toList_ofList]
  exact forall_toSnakeFrom hunderscore hlower (fun ch hch => absurd hch List.not_mem_nil) hin

theorem isIdentifierChar_of_isIdentifier {input : String} (h : isIdentifier input = true) :
    ∀ ch ∈ input.toList, isIdentifierChar ch = true := by
  unfold isIdentifier at h
  cases hl : input.toList with
  | nil => exact fun ch hch => absurd hch List.not_mem_nil
  | cons first chars =>
    rw [hl] at h
    exact List.all_eq_true.mp (Bool.and_eq_true_iff.mp h).2

theorem isIdentifierChar_toSnake {input : String} (h : isIdentifier input = true) :
    ∀ ch ∈ (toSnake input).toList, isIdentifierChar ch = true :=
  forall_toSnake (P := fun ch => isIdentifierChar ch = true) rfl
    (fun _ => isIdentifierChar_toLower)
    fun ch hch _ => isIdentifierChar_of_isIdentifier h ch hch

theorem not_isUpper_toLower {ch : Char} (h : ch.isUpper = true) : ch.toLower.isUpper = false := by
  have hlow := isLower_toLower h
  unfold Char.isLower at hlow
  unfold Char.isUpper
  simp only [ge_iff_le, Bool.decide_and, Bool.and_eq_true, decide_eq_true_eq, Bool.and_eq_false_iff,
    decide_eq_false_iff_not, UInt32.le_iff_toNat_le] at hlow ⊢
  simp at hlow ⊢
  omega

theorem toSnakeFrom_lower {chars : List Char} : ∀ {out : List Char} {prev : Option Char},
    (∀ ch ∈ chars, ch.isUpper = false) → toSnakeFrom out prev chars = out ++ chars := by
  induction chars with
  | nil => exact fun _ => (List.append_nil _).symm
  | cons c chars ih =>
    intro out prev h
    unfold toSnakeFrom
    rw [if_neg (Bool.eq_false_iff.mp (h c List.mem_cons_self)),
      ih fun ch hch => h ch (List.mem_cons_of_mem _ hch), List.append_assoc]
    rfl

theorem toSnake_toSnake (input : String) : toSnake (toSnake input) = toSnake input := by
  have hlower : ∀ ch ∈ (toSnake input).toList, ch.isUpper = false :=
    forall_toSnake (P := fun ch => ch.isUpper = false) rfl (fun _ => not_isUpper_toLower)
      fun _ _ h => h
  have heq : toSnake (toSnake input) =
      String.ofList (toSnakeFrom [] none (toSnake input).toList) := rfl
  rw [heq, toSnakeFrom_lower hlower, List.nil_append, String.ofList_toList]

/-! ## generated names -/

def RESERVED_GENERATED_PREFIX : String := "gen__"

/-- the suffix of the names generated for an actor -/
def hiddenActorSuffix (actor : String) : String :=
  toSnake (String.ofList (actor.toList.map fun ch => if isIdentifierChar ch then ch else '_'))

def hiddenTemplateName (actor : String) : String :=
  RESERVED_GENERATED_PREFIX ++ hiddenActorSuffix actor ++ "_template"

/-- the identity of a route family in the artifact: `route_family/{state}/{rep}` -/
def routeFamilyId (state repActor : String) : String :=
  "route_family/" ++ state ++ "/" ++ toSnake repActor

/-- the part of a family's identity after its last slash -/
def routeFamilySuffix (family : String) : String :=
  toSnake (String.ofList (family.toList.reverse.takeWhile (· != '/')).reverse)

def hiddenRouteFamilyCommitmentName (family : String) : String :=
  RESERVED_GENERATED_PREFIX ++ routeFamilySuffix family ++ "_routes_digest"

def hiddenRouteFamilyTableName (family : String) : String :=
  RESERVED_GENERATED_PREFIX ++ routeFamilySuffix family ++ "_routes"

/-- two texts that end in a segment without the separator have the same last segment -/
theorem segment_inj {α : Type*} {sep : α} {pre pre' seg seg' : List α} (h : sep ∉ seg)
    (h' : sep ∉ seg') (heq : pre ++ sep :: seg = pre' ++ sep :: seg') : seg = seg' := by
  obtain ⟨mid, hpre, hmid⟩ | ⟨mid, hpre, hmid⟩ := List.append_eq_append_iff.mp heq
  · cases mid with
    | nil => exact (List.cons.inj hmid).2
    | cons c mid =>
      have hsep := (List.cons.inj hmid).2
      exact absurd (hsep ▸ List.mem_append_right mid List.mem_cons_self) h
  · cases mid with
    | nil => exact (List.cons.inj hmid).2.symm
    | cons c mid =>
      have hsep := (List.cons.inj hmid).2
      exact absurd (hsep ▸ List.mem_append_right mid List.mem_cons_self) h'

/-- **Two families of one identity have one representative suffix.** -/
theorem routeFamilyId_inj {state state' rep rep' : String} (h : isIdentifier rep = true)
    (h' : isIdentifier rep' = true) (heq : routeFamilyId state rep = routeFamilyId state' rep') :
    toSnake rep = toSnake rep' := by
  have hslash : ∀ {input : String}, isIdentifier input = true → '/' ∉ (toSnake input).toList :=
    fun hid hmem => absurd (isIdentifierChar_toSnake hid '/' hmem) (by decide)
  have hlist : (("route_family/" ++ state).toList) ++ '/' :: (toSnake rep).toList =
      (("route_family/" ++ state').toList) ++ '/' :: (toSnake rep').toList := by
    have := congrArg String.toList heq
    unfold routeFamilyId at this
    simp only [String.toList_append, List.append_assoc] at this ⊢
    exact this
  exact String.toList_injective (segment_inj (hslash h) (hslash h') hlist)

/-! ## distinct names -/

theorem hiddenActorSuffix_eq {actor : String} (h : isIdentifier actor = true) :
    hiddenActorSuffix actor = toSnake actor := by
  have hchars := isIdentifierChar_of_isIdentifier h
  have hmap : (actor.toList.map fun ch => if isIdentifierChar ch then ch else '_') =
      actor.toList := by
    refine (List.map_congr_left fun ch hch => ?_).trans (List.map_id _)
    rw [if_pos (hchars ch hch)]
    rfl
  unfold hiddenActorSuffix
  rw [hmap, String.ofList_toList]

theorem routeFamilySuffix_routeFamilyId {state rep : String} (h : isIdentifier rep = true) :
    routeFamilySuffix (routeFamilyId state rep) = toSnake rep := by
  have hslash : ∀ ch ∈ (toSnake rep).toList.reverse, (ch != '/') = true := by
    intro ch hch
    rw [bne_iff_ne]
    rintro rfl
    exact absurd (isIdentifierChar_toSnake h '/' (List.mem_reverse.mp hch)) (by decide)
  have hlist : (routeFamilyId state rep).toList.reverse =
      (toSnake rep).toList.reverse ++ '/' :: ("route_family/" ++ state).toList.reverse := by
    unfold routeFamilyId
    simp only [String.toList_append, List.reverse_append]
    rfl
  unfold routeFamilySuffix
  rw [hlist, List.takeWhile_append_of_pos hslash, List.takeWhile_cons_of_neg (by decide),
    List.append_nil, List.reverse_reverse, String.ofList_toList, toSnake_toSnake]

theorem generated_inj {suffix suffix' back : String}
    (h : RESERVED_GENERATED_PREFIX ++ suffix ++ back = RESERVED_GENERATED_PREFIX ++ suffix' ++ back) :
    suffix = suffix' := by
  have hlist := congrArg String.toList h
  simp only [String.toList_append, List.append_assoc] at hlist
  exact String.toList_injective
    (List.append_cancel_right (List.append_cancel_left hlist))

/-- the last character of a generated name tells its kind -/
theorem append_ne {front front' back back' : String} (h : back.toList ≠ [])
    (h' : back'.toList ≠ []) (hlast : back.toList.getLast? ≠ back'.toList.getLast?) :
    front ++ back ≠ front' ++ back' := by
  intro heq
  have hlist := congrArg (fun name : String => name.toList.getLast?) heq
  simp only [String.toList_append, List.getLast?_append_of_ne_nil _ h,
    List.getLast?_append_of_ne_nil _ h'] at hlist
  exact hlast hlist

theorem hiddenTemplateName_inj {actor actor' : String} (h : isIdentifier actor = true)
    (h' : isIdentifier actor' = true)
    (heq : hiddenTemplateName actor = hiddenTemplateName actor') :
    toSnake actor = toSnake actor' := by
  rw [← hiddenActorSuffix_eq h, ← hiddenActorSuffix_eq h']
  exact generated_inj heq

theorem template_ne_table {actor family : String} :
    hiddenTemplateName actor ≠ hiddenRouteFamilyTableName family :=
  append_ne (by decide) (by decide) (by decide)

theorem template_ne_digest {actor family : String} :
    hiddenTemplateName actor ≠ hiddenRouteFamilyCommitmentName family :=
  append_ne (by decide) (by decide) (by decide)

theorem table_ne_digest {family family' : String} :
    hiddenRouteFamilyTableName family ≠ hiddenRouteFamilyCommitmentName family' :=
  append_ne (by decide) (by decide) (by decide)

end Argent.Model
