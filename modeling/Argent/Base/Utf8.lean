import Argent.Base.Fallible

/-!
# UTF-8 texts

A text is a sequence of characters that is addressed by its bytes: a position is a number of bytes,
and a text can be cut only where a character ends.

* `utf8`, `splitByte`          the bytes of a text, and its two parts at a position;
* `splitByte_eq_some`          the parts of a text are texts;
* `boundary_of_ascii`          **an ASCII byte stands between two positions where a text can be cut**.
-/

set_option linter.unusedSectionVars false

namespace Argent.Utf8

/-- the bytes of a text -/
def utf8 (text : List Char) : List UInt8 := text.flatMap String.utf8EncodeChar

/-- the byte of an ASCII character -/
def ascii (c : Char) : UInt8 := UInt8.ofNat c.toNat

/-- the parts of a text before and after a position -/
def splitByte : Nat → List Char → Option (List Char × List Char)
  | 0, text => some ([], text)
  | _ + 1, [] => none
  | n + 1, c :: text =>
    if c.utf8Size ≤ n + 1 then
      (splitByte (n + 1 - c.utf8Size) text).map fun parts => (c :: parts.1, parts.2)
    else none

/-- `text.is_char_boundary(position)` -/
def isCharBoundary (text : List Char) (position : Nat) : Bool := (splitByte position text).isSome

/-- `text[start..stop]` -/
def slice (text : List Char) (start stop : Nat) : Option (List Char) := do
  let (_, rest) ← splitByte start text
  if start ≤ stop then
    let (part, _) ← splitByte (stop - start) rest
    some part
  else none

variable {text pre post : List Char} {n : Nat} {b : UInt8}

theorem utf8_cons (c : Char) (text : List Char) :
    utf8 (c :: text) = String.utf8EncodeChar c ++ utf8 text := List.flatMap_cons

theorem utf8_append (pre post : List Char) : utf8 (pre ++ post) = utf8 pre ++ utf8 post :=
  List.flatMap_append

/-! ## cutting a text -/

theorem splitByte_append (pre post : List Char) :
    splitByte (utf8 pre).length (pre ++ post) = some (pre, post) := by
  induction pre with
  | nil => rw [show (utf8 []).length = 0 from rfl, List.nil_append, splitByte]
  | cons c pre ih =>
    have hlen : (utf8 (c :: pre)).length = ((utf8 pre).length + c.utf8Size - 1) + 1 := by
      rw [utf8_cons, List.length_append, String.length_utf8EncodeChar]
      have hpos := c.utf8Size_pos
      omega
    have hpos := c.utf8Size_pos
    rw [hlen, List.cons_append, splitByte, if_pos (by omega),
      show (utf8 pre).length + c.utf8Size - 1 + 1 - c.utf8Size = (utf8 pre).length by omega, ih]
    rfl

theorem splitByte_eq_some :
    splitByte n text = some (pre, post) ↔ text = pre ++ post ∧ (utf8 pre).length = n := by
  constructor
  · intro h
    induction text generalizing n pre with
    | nil =>
      cases n with
      | zero =>
        rw [splitByte] at h
        cases h
        exact ⟨rfl, rfl⟩
      | succ n => cases h
    | cons c text ih =>
      cases n with
      | zero =>
        rw [splitByte] at h
        cases h
        exact ⟨rfl, rfl⟩
      | succ n =>
        rw [splitByte] at h
        split_ifs at h with hsize
        obtain ⟨parts, hparts, heq⟩ := Option.map_eq_some_iff.mp h
        cases heq
        obtain ⟨htext, hlen⟩ := ih hparts
        refine ⟨by rw [htext, List.cons_append], ?_⟩
        rw [utf8_cons, List.length_append, String.length_utf8EncodeChar, hlen]
        omega
  · rintro ⟨rfl, rfl⟩
    exact splitByte_append pre post

theorem slice_append (pre part post : List Char) :
    slice (pre ++ (part ++ post)) (utf8 pre).length ((utf8 pre).length + (utf8 part).length) =
      some part := by
  unfold slice
  rw [splitByte_append, Option.bind_eq_bind, Option.bind_some]
  dsimp only
  rw [if_pos (Nat.le_add_right _ _), Nat.add_sub_cancel_left, splitByte_append]
  rfl

theorem slice_eq_some {part : List Char} {start stop : Nat} (h : slice text start stop = some part) :
    start ≤ stop ∧ ∃ pre post, text = pre ++ (part ++ post) ∧ (utf8 pre).length = start ∧
      (utf8 part).length = stop - start := by
  obtain ⟨⟨pre, rest⟩, hpre, hcut⟩ := Option.bind_eq_some_iff.mp h
  dsimp only at hcut
  split_ifs at hcut with hle
  obtain ⟨⟨part', post⟩, hpart, heq⟩ := Option.bind_eq_some_iff.mp hcut
  obtain rfl := Option.some_inj.mp heq
  obtain ⟨rfl, hstart⟩ := splitByte_eq_some.mp hpre
  obtain ⟨rfl, hlen⟩ := splitByte_eq_some.mp hpart
  exact ⟨hle, pre, post, rfl, hstart, hlen⟩

theorem utf8_slice {part : List Char} {start stop : Nat} (h : slice text start stop = some part) :
    utf8 part = ((utf8 text).drop start).take (stop - start) := by
  obtain ⟨-, pre, post, rfl, hstart, hlen⟩ := slice_eq_some h
  rw [utf8_append, ← hstart, List.drop_left, hstart, ← hlen, utf8_append, List.take_left]

/-- a text can be cut from the start of one slice to the end of a later one -/
theorem slice_hull {first second : List Char} {start stop start' stop' : Nat}
    (h : slice text start stop = some first) (h' : slice text start' stop' = some second)
    (hle : start ≤ start') : (slice text start stop').isSome := by
  obtain ⟨-, pre, post, htext, hstart, -⟩ := slice_eq_some h
  obtain ⟨hle', pre', post', htext', hstart', hlen'⟩ := slice_eq_some h'
  have hcut : text = (pre' ++ second) ++ post' := by rw [htext', List.append_assoc]
  have hlen : (utf8 (pre' ++ second)).length = stop' := by
    rw [utf8_append, List.length_append, hstart', hlen']
    omega
  have hslice : ∀ mid rest, text = pre ++ (mid ++ rest) →
      (utf8 pre).length + (utf8 mid).length = stop' → (slice text start stop').isSome := by
    rintro mid rest rfl rfl
    rw [← hstart, slice_append]
    rfl
  obtain ⟨mid, hmid⟩ | ⟨mid, hmid⟩ := List.prefix_or_prefix_of_prefix
    (show pre <+: text from ⟨_, htext.symm⟩) (show pre' ++ second <+: text from ⟨_, hcut.symm⟩)
  · refine hslice mid post' (by rw [hcut, ← hmid, List.append_assoc]) ?_
    rw [← hlen, ← hmid, utf8_append, List.length_append]
  · -- both ends are at the start of the first slice
    have hempty : (utf8 pre).length = stop' + (utf8 mid).length := by
      rw [← hmid, utf8_append, List.length_append, hlen]
    refine hslice [] (first ++ post) htext ?_
    show (utf8 pre).length + 0 = stop'
    omega

theorem isCharBoundary_zero : isCharBoundary text 0 = true := by
  unfold isCharBoundary
  rw [splitByte]
  rfl

/-! ## ASCII -/

theorem utf8EncodeChar_of_ascii {c : Char} (hmem : b ∈ String.utf8EncodeChar c) (hb : b < 128) :
    String.utf8EncodeChar c = [b] := by
  have hbound : ∀ v k m : Nat, 128 ≤ k → 0 < m → k + m ≤ 256 → ¬ UInt8.ofNat (v % m + k) < 128 := by
    intro v k m hk hm hkm hlt
    rw [UInt8.lt_iff_toNat_lt, UInt8.toNat_ofNat'] at hlt
    have hmod := Nat.mod_lt v hm
    rw [Nat.mod_eq_of_lt (by omega)] at hlt
    exact absurd hlt (by show ¬ v % m + k < 128; omega)
  unfold String.utf8EncodeChar at hmem ⊢
  dsimp only at hmem ⊢
  split_ifs at hmem ⊢
  · rw [List.mem_singleton] at hmem
    rw [hmem]
  · simp only [List.mem_cons, List.not_mem_nil, or_false] at hmem
    obtain rfl | rfl := hmem
    · exact absurd hb (hbound _ _ _ (by decide) (by decide) (by decide))
    · exact absurd hb (hbound _ _ _ (by decide) (by decide) (by decide))
  · simp only [List.mem_cons, List.not_mem_nil, or_false] at hmem
    obtain rfl | rfl | rfl := hmem
    · exact absurd hb (hbound _ _ _ (by decide) (by decide) (by decide))
    · exact absurd hb (hbound _ _ _ (by decide) (by decide) (by decide))
    · exact absurd hb (hbound _ _ _ (by decide) (by decide) (by decide))
  · simp only [List.mem_cons, List.not_mem_nil, or_false] at hmem
    obtain rfl | rfl | rfl | rfl := hmem
    · exact absurd hb (hbound _ _ _ (by decide) (by decide) (by decide))
    · exact absurd hb (hbound _ _ _ (by decide) (by decide) (by decide))
    · exact absurd hb (hbound _ _ _ (by decide) (by decide) (by decide))
    · exact absurd hb (hbound _ _ _ (by decide) (by decide) (by decide))

theorem utf8_of_ascii (h : ∀ b ∈ utf8 text, b < 128) :
    utf8 text = text.map ascii ∧ ∀ c ∈ text, c.toNat < 128 := by
  induction text with
  | nil => exact ⟨rfl, fun c hc => absurd hc List.not_mem_nil⟩
  | cons c text ih =>
    rw [utf8_cons] at h
    obtain ⟨hbytes, hchars⟩ := ih fun b hb => h b (List.mem_append_right _ hb)
    have hlen := String.length_utf8EncodeChar c
    obtain ⟨b, rest, hcons⟩ := List.exists_cons_of_length_pos (hlen ▸ c.utf8Size_pos)
    have hmem : b ∈ String.utf8EncodeChar c := hcons ▸ List.mem_cons_self
    have hone := utf8EncodeChar_of_ascii hmem (h b (List.mem_append_left _ hmem))
    have hsize : c.utf8Size = 1 := by
      rw [← hlen, hone]
      rfl
    have hsmall : c.toNat ≤ 127 := UInt32.le_iff_toNat_le.mp (Char.utf8Size_eq_one_iff.mp hsize)
    refine ⟨?_, fun d hd => ?_⟩
    · rw [utf8_cons, String.utf8EncodeChar_eq_singleton hsize, hbytes]
      rfl
    · obtain rfl | hd := List.mem_cons.mp hd
      · omega
      · exact hchars d hd

/-- **An ASCII byte of a text is one of its characters.** -/
theorem boundary_of_ascii (h : (utf8 text)[n]? = some b) (hb : b < 128) :
    ∃ pre c post, text = pre ++ c :: post ∧ (utf8 pre).length = n ∧
      String.utf8EncodeChar c = [b] := by
  induction text generalizing n with
  | nil => cases h
  | cons c text ih =>
    rw [utf8_cons] at h
    by_cases hn : n < (String.utf8EncodeChar c).length
    · rw [List.getElem?_append_left hn] at h
      have hone := utf8EncodeChar_of_ascii (List.mem_of_getElem? h) hb
      rw [hone, List.length_singleton] at hn
      exact ⟨[], c, text, rfl, by rw [show n = 0 by omega]; rfl, hone⟩
    · rw [List.getElem?_append_right (by omega)] at h
      obtain ⟨pre, d, post, htext, hlen, hd⟩ := ih h
      refine ⟨c :: pre, d, post, by rw [htext, List.cons_append], ?_, hd⟩
      rw [utf8_cons, List.length_append, hlen]
      omega

end Argent.Utf8
