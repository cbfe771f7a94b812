import Argent.Model.Entry

/-!
# Positions of a section

A section names transaction items in order; at most one of its handles stands for a range of them.

* `SectionShape`                     a section is plain, or has one range between singletons;
* `InteractionSection.expand`        the section with its range at an actual count;
* `InteractionSection.expand_owner`  **the location of the item at a position owns that position**;
* `interactionLocations_cover`       **the locations stand for each position of the clause once**.
-/

set_option linter.unusedSectionVars false

namespace Argent.Model

/-- whether a location owns a position among `total` items -/
def InteractionLocation.Owns (total : Nat) (position : Nat) : InteractionLocation → Prop
  | .fromStart index => position = index
  | .range start singletonCount =>
    start ≤ position ∧ position < start + (total - singletonCount)
  | .fromEnd distance => position + distance = total

/-- the item, or `count` times a ranged item -/
def EntryInteraction.expand (count : Nat) (item : EntryInteraction) : List EntryInteraction :=
  match item.cardinality with
  | .one => [item]
  | .range _ => List.replicate count item

/-- the items of a section when its range stands for `count` items -/
def InteractionSection.expand (section_ : InteractionSection) (count : Nat) :
    List EntryInteraction :=
  section_.items.flatMap (EntryInteraction.expand count)

/-! ## shapes -/

/-- the planned locations of a section without a range, or with one range between singletons -/
inductive SectionShape : List EntryInteraction → Prop
  | plain {items : List EntryInteraction} (ones : ∀ item ∈ items, item.cardinality = .one)
      (locations : ∀ (j : Nat) item, items[j]? = some item → item.location = .fromStart j) :
      SectionShape items
  | ranged {pre post : List EntryInteraction} {item : EntryInteraction} (bounds : RangeBounds)
      (range : item.cardinality = .range bounds)
      (ones : ∀ other ∈ pre ++ post, other.cardinality = .one)
      (location : item.location = .range pre.length (pre.length + post.length))
      (before : ∀ (j : Nat) other, pre[j]? = some other → other.location = .fromStart j)
      (after : ∀ (j : Nat) other, post[j]? = some other →
        other.location = .fromEnd (post.length - j)) :
      SectionShape (pre ++ item :: post)

theorem eq_one_of_not_isRange {cardinality : ResolvedCardinality}
    (h : cardinality.isRange ≠ true) : cardinality = .one := by
  cases cardinality with
  | one => rfl
  | range bounds => exact absurd rfl h

theorem sectionRanges_eq {items : List (String × ResolvedCardinality)} {handle : String} {r : Nat}
    {rest : List (String × Nat)} (h : sectionRanges items = (handle, r) :: rest) :
    ∃ pre item post, items = pre ++ item :: post ∧ pre.length = r ∧ item.2.isRange = true ∧
      (∀ other ∈ pre, other.2.isRange ≠ true) ∧
      (rest = [] → ∀ other ∈ post, other.2.isRange ≠ true) := by
  unfold sectionRanges at h
  obtain ⟨found, tail, hfilter, hfound, htail⟩ := List.map_eq_cons_iff.mp h
  obtain ⟨pre, post, hsplit, hpre, hrange, hpost⟩ := List.filter_eq_cons_iff.mp hfilter
  have hfst := congrArg (List.map Prod.fst) hsplit
  rw [List.zipIdx_map_fst, List.map_append, List.map_cons] at hfst
  refine ⟨pre.map Prod.fst, found.1, post.map Prod.fst, hfst, ?_, hrange, ?_, ?_⟩
  · have hget : items.zipIdx[pre.length]? = some found := by
      rw [hsplit, List.getElem?_append_right (Nat.le_refl _), Nat.sub_self, List.getElem?_cons_zero]
    rw [List.getElem?_zipIdx, Nat.zero_add] at hget
    obtain ⟨_, _, hfound'⟩ := Option.map_eq_some_iff.mp hget
    rw [List.length_map, ← (Prod.mk.inj hfound).2, ← hfound']
  · intro other hother
    obtain ⟨indexed, hindexed, hfst⟩ := List.mem_map.mp hother
    exact hfst ▸ hpre indexed hindexed
  · intro hrest other hother
    obtain ⟨indexed, hindexed, hfst⟩ := List.mem_map.mp hother
    rw [hrest, List.map_eq_nil_iff] at htail
    rw [htail, List.filter_eq_nil_iff] at hpost
    exact hfst ▸ hpost indexed hindexed

/-- the planned locations of a section, by index -/
theorem location_of_planned {items : List EntryInteraction} {rangeIndex : Option Nat} {n : Nat}
    (h : (List.range n).map (locationAt n rangeIndex) = items.map (·.location)) {j : Nat}
    {item : EntryInteraction} (hitem : items[j]? = some item) :
    n = items.length ∧ item.location = locationAt n rangeIndex j := by
  have hlen : n = items.length := by
    have := congrArg List.length h
    rwa [List.length_map, List.length_range, List.length_map] at this
  refine ⟨hlen, ?_⟩
  have hget := congrArg (fun l : List InteractionLocation => l[j]?) h
  have hj : j < n := hlen ▸ (List.getElem?_eq_some_iff.mp hitem).1
  rw [List.getElem?_map, List.getElem?_range hj, List.getElem?_map, hitem, Option.map_some,
    Option.map_some, Option.some_inj] at hget
  exact hget.symm

/-- **A section is plain, or has one range between singletons.** -/
theorem InteractionSection.shape (section_ : InteractionSection) : SectionShape section_.items := by
  obtain ⟨items, hplanned⟩ := section_
  show SectionShape items
  unfold interactionLocations at hplanned
  cases hranges : sectionRanges (items.map fun item => (item.handle, item.cardinality)) with
  | nil =>
    rw [hranges] at hplanned
    have hlocations := Except.ok.inj hplanned
    refine .plain (fun item hitem => ?_) fun j item hitem => ?_
    · unfold sectionRanges at hranges
      rw [List.map_eq_nil_iff, List.filter_eq_nil_iff] at hranges
      obtain ⟨j, hj⟩ := List.mem_iff_getElem?.mp hitem
      have hmem : ((item.handle, item.cardinality), j) ∈
          (items.map fun item => (item.handle, item.cardinality)).zipIdx := by
        rw [List.mem_zipIdx_iff_getElem?, List.getElem?_map, hj, Option.map_some]
      exact eq_one_of_not_isRange (hranges _ hmem)
    · exact (location_of_planned hlocations hitem).2
  | cons found rest =>
    obtain ⟨handle, r⟩ := found
    rw [hranges] at hplanned
    obtain ⟨pre, item, post, hsplit, hlen, hrange, hpre, hpost⟩ := sectionRanges_eq hranges
    cases rest with
    | cons _ _ => cases hplanned
    | nil =>
      obtain ⟨pre', rest', rfl, hpre', hrest'⟩ := List.map_eq_append_iff.mp hsplit
      obtain ⟨range, post', rfl, hrange', hpost'⟩ := List.map_eq_cons_iff.mp hrest'
      have hlocations := Except.ok.inj hplanned
      have hlocation := fun (j : Nat) (item : EntryInteraction)
        (hitem : (pre' ++ range :: post')[j]? = some item) => location_of_planned hlocations hitem
      have hlen' : r = pre'.length := by rw [← hlen, ← hpre', List.length_map]
      have htotal : ((pre' ++ range :: post').map fun item =>
          (item.handle, item.cardinality)).length = pre'.length + 1 + post'.length := by
        rw [List.length_map, List.length_append, List.length_cons]
        omega
      rw [htotal] at hlocation
      have hone : ∀ {l : List (String × ResolvedCardinality)} {l' : List EntryInteraction},
          l'.map (fun item => (item.handle, item.cardinality)) = l →
          (∀ other ∈ l, other.2.isRange ≠ true) → ∀ other ∈ l', other.cardinality = .one := by
        intro l l' hl hall other hother
        exact eq_one_of_not_isRange (hall _ (hl ▸ List.mem_map_of_mem hother))
      have hranged : ∃ bounds, range.cardinality = .range bounds := by
        rw [← hrange'] at hrange
        cases hcard : range.cardinality with
        | one => rw [hcard] at hrange; cases hrange
        | range bounds => exact ⟨bounds, rfl⟩
      obtain ⟨bounds, hbounds⟩ := hranged
      refine .ranged bounds hbounds ?_ ?_ ?_ ?_
      · intro other hother
        obtain hother | hother := List.mem_append.mp hother
        · exact hone hpre' hpre other hother
        · exact hone hpost' (hpost rfl) other hother
      · obtain ⟨_, h⟩ := hlocation pre'.length range (by
          rw [List.getElem?_append_right (Nat.le_refl _), Nat.sub_self, List.getElem?_cons_zero])
        rw [h, hlen', locationAt, if_neg (by omega), if_pos rfl]
        exact congrArg _ (by omega)
      · intro j other hother
        have hj := (List.getElem?_eq_some_iff.mp hother).1
        obtain ⟨_, h⟩ := hlocation j other
          ((List.getElem?_append_left hj).trans hother)
        rw [h, hlen', locationAt, if_pos hj]
      · intro j other hother
        have hj := (List.getElem?_eq_some_iff.mp hother).1
        obtain ⟨_, h⟩ := hlocation (pre'.length + 1 + j) other (by
          rw [List.getElem?_append_right (by omega),
            show pre'.length + 1 + j - pre'.length = j + 1 by omega, List.getElem?_cons_succ, hother])
        rw [h, hlen', locationAt, if_neg (by omega), if_neg (by omega)]
        exact congrArg _ (by omega)

/-! ## expansion -/

section
variable {count : Nat} {section_ : InteractionSection}

theorem flatMap_expand_ones {items : List EntryInteraction}
    (h : ∀ item ∈ items, item.cardinality = .one) :
    items.flatMap (EntryInteraction.expand count) = items := by
  induction items with
  | nil => rfl
  | cons item items ih =>
    rw [List.flatMap_cons, ih fun other hother => h other (List.mem_cons_of_mem _ hother)]
    unfold EntryInteraction.expand
    rw [h item List.mem_cons_self]
    rfl

theorem expand_ranged {pre post : List EntryInteraction} {item : EntryInteraction}
    {bounds : RangeBounds} (hrange : item.cardinality = .range bounds)
    (hones : ∀ other ∈ pre ++ post, other.cardinality = .one) :
    (pre ++ item :: post).flatMap (EntryInteraction.expand count) =
      pre ++ (List.replicate count item ++ post) := by
  rw [List.flatMap_append, List.flatMap_cons,
    flatMap_expand_ones fun other h => hones other (List.mem_append_left _ h),
    flatMap_expand_ones fun other h => hones other (List.mem_append_right _ h)]
  conv_lhs => unfold EntryInteraction.expand
  rw [hrange]

/-- **The location of the item at a position owns that position.** -/
theorem InteractionSection.expand_owner {position : Nat} {item : EntryInteraction}
    (h : (section_.expand count)[position]? = some item) :
    item ∈ section_.items ∧ item.location.Owns (section_.expand count).length position := by
  have hshape := section_.shape
  unfold InteractionSection.expand at h ⊢
  generalize section_.items = items at hshape h ⊢
  cases hshape with
  | plain ones locations =>
    rw [flatMap_expand_ones ones] at h ⊢
    refine ⟨List.mem_of_getElem? h, ?_⟩
    rw [locations position item h]
    rfl
  | @ranged pre post range bounds hrange ones location before after =>
    rw [expand_ranged hrange ones] at h ⊢
    rw [List.length_append, List.length_append, List.length_replicate]
    by_cases hpre : position < pre.length
    · rw [List.getElem?_append_left hpre] at h
      refine ⟨List.mem_append_left _ (List.mem_of_getElem? h), ?_⟩
      rw [before position item h]
      rfl
    · rw [List.getElem?_append_right (by omega)] at h
      by_cases hmid : position - pre.length < count
      · rw [List.getElem?_append_left (by rwa [List.length_replicate]),
          List.getElem?_replicate_of_lt hmid, Option.some_inj] at h
        refine ⟨h ▸ List.mem_append_right _ List.mem_cons_self, ?_⟩
        rw [← h, location]
        show pre.length ≤ position ∧ position < pre.length +
          (pre.length + (count + post.length) - (pre.length + post.length))
        omega
      · rw [List.getElem?_append_right (by rw [List.length_replicate]; omega),
          List.length_replicate] at h
        have hj := (List.getElem?_eq_some_iff.mp h).1
        refine ⟨List.mem_append_right _ (List.mem_cons_of_mem _ (List.mem_of_getElem? h)), ?_⟩
        rw [after _ item h]
        show position + (post.length - (position - pre.length - count)) =
          pre.length + (count + post.length)
        omega

theorem InteractionSection.length_expand :
    (section_.expand count).length =
      if section_.items.any (·.cardinality.isRange) then section_.items.length - 1 + count
      else section_.items.length := by
  have hshape := section_.shape
  unfold InteractionSection.expand
  generalize section_.items = items at hshape ⊢
  have hnot : ∀ {l : List EntryInteraction}, (∀ item ∈ l, item.cardinality = .one) →
      l.any (·.cardinality.isRange) = false := by
    intro l hl
    refine List.any_eq_false.mpr fun item hitem => ?_
    rw [hl item hitem]
    exact Bool.false_ne_true
  cases hshape with
  | plain ones _ => rw [flatMap_expand_ones ones, hnot ones, if_neg Bool.false_ne_true]
  | @ranged pre post range bounds hrange ones _ _ _ =>
    rw [expand_ranged hrange ones, if_pos]
    · simp only [List.length_append, List.length_replicate, List.length_cons]
      omega
    · rw [List.any_append, List.any_cons, hrange]
      exact Bool.or_eq_true_iff.mpr (.inr rfl)

theorem InteractionSection.one_of_ne (section_ : InteractionSection) {i j : Nat}
    {item other : EntryInteraction} {bounds : RangeBounds} (hitem : section_.items[i]? = some item)
    (hrange : item.cardinality = .range bounds) (hother : section_.items[j]? = some other)
    (hne : j ≠ i) : other.cardinality = .one := by
  have hcases : ∀ {pre post : List EntryInteraction} {ranged : EntryInteraction},
      (∀ one ∈ pre ++ post, one.cardinality = .one) → ∀ (k : Nat) found,
      (pre ++ ranged :: post)[k]? = some found → k = pre.length ∨ found.cardinality = .one := by
    intro pre post ranged hones k found hfound
    rcases Nat.lt_trichotomy k pre.length with hlt | heq | hgt
    · rw [List.getElem?_append_left hlt] at hfound
      exact .inr (hones found (List.mem_append_left _ (List.mem_of_getElem? hfound)))
    · exact .inl heq
    · rw [List.getElem?_append_right hgt.le,
        show k - pre.length = k - pre.length - 1 + 1 by omega, List.getElem?_cons_succ] at hfound
      exact .inr (hones found (List.mem_append_right _ (List.mem_of_getElem? hfound)))
  obtain ⟨items, planned⟩ := section_
  cases InteractionSection.shape ⟨items, planned⟩ with
  | plain ones locations => exact ones other (List.mem_of_getElem? hother)
  | ranged bounds' range ones location before after =>
    rcases hcases ones i item hitem with hi | hone
    · rcases hcases ones j other hother with hj | hone
      · exact absurd (hj.trans hi.symm) hne
      · exact hone
    · rw [hrange] at hone
      cases hone

theorem InteractionSection.range_location {item : EntryInteraction} {bounds : RangeBounds}
    (hitem : item ∈ section_.items) (hrange : item.cardinality = .range bounds) :
    ∃ start, item.location = .range start (section_.items.length - 1) := by
  have hshape := section_.shape
  generalize section_.items = items at hshape hitem ⊢
  cases hshape with
  | plain ones _ =>
    have hone := ones item hitem
    rw [hrange] at hone
    cases hone
  | @ranged pre post range _ _ ones location _ _ =>
    have heq : item = range := by
      by_contra hne
      obtain hpre | hmem := List.mem_append.mp hitem
      · have hone := ones item (List.mem_append_left _ hpre)
        rw [hrange] at hone
        cases hone
      · have hpost := (List.mem_cons.mp hmem).resolve_left hne
        have hone := ones item (List.mem_append_right _ hpost)
        rw [hrange] at hone
        cases hone
    refine ⟨pre.length, ?_⟩
    rw [heq, location, List.length_append, List.length_cons]
    exact congrArg _ (by omega)

/-- how an item can be placed: a singleton from the start, the range, or a singleton from the end -/
theorem InteractionSection.location_cases {item : EntryInteraction}
    (hitem : item ∈ section_.items) :
    (item.cardinality = .one ∧ ∃ index, item.location = .fromStart index) ∨
      (∃ bounds start, item.cardinality = .range bounds ∧
        item.location = .range start (section_.items.length - 1)) ∨
      item.cardinality = .one ∧ ∃ bounds distance, .range bounds ∈ section_.items.map (·.cardinality) ∧
        item.location = .fromEnd distance ∧ distance ≤ section_.items.length - 1 := by
  have hshape := section_.shape
  generalize section_.items = items at hshape hitem ⊢
  cases hshape with
  | plain ones locations =>
    obtain ⟨j, hj⟩ := List.mem_iff_getElem?.mp hitem
    exact .inl ⟨ones item hitem, j, locations j item hj⟩
  | @ranged pre post range bounds hrange ones location before after =>
    obtain hpre | hmem := List.mem_append.mp hitem
    · obtain ⟨j, hj⟩ := List.mem_iff_getElem?.mp hpre
      exact .inl ⟨ones item (List.mem_append_left _ hpre), j, before j item hj⟩
    obtain rfl | hpost := List.mem_cons.mp hmem
    · refine .inr (.inl ⟨bounds, pre.length, hrange, ?_⟩)
      rw [location, List.length_append, List.length_cons]
      exact congrArg _ (by omega)
    · obtain ⟨j, hj⟩ := List.mem_iff_getElem?.mp hpost
      refine .inr (.inr ⟨ones item (List.mem_append_right _ hpost), bounds, post.length - j, ?_,
        after j item hj, ?_⟩)
      · rw [← hrange]
        exact List.mem_map_of_mem (List.mem_append_right _ List.mem_cons_self)
      · rw [List.length_append, List.length_cons]
        omega

/-- the items that stand at a fixed index are the singletons that no range precedes -/
theorem InteractionSection.fromStart_iff {j : Nat} {item : EntryInteraction}
    (hitem : section_.items[j]? = some item) :
    (∃ index, item.location = .fromStart index) ↔
      ∀ i ≤ j, ∀ other, section_.items[i]? = some other → other.cardinality = .one := by
  have hshape := section_.shape
  generalize section_.items = items at hshape hitem ⊢
  cases hshape with
  | plain ones locations =>
    refine ⟨fun _ i _ other hother => ones other (List.mem_of_getElem? hother), fun _ => ?_⟩
    exact ⟨j, locations j item hitem⟩
  | @ranged pre post range bounds hrange ones location before after =>
    have hrangeAt : (pre ++ range :: post)[pre.length]? = some range := by
      rw [List.getElem?_append_right (Nat.le_refl _), Nat.sub_self, List.getElem?_cons_zero]
    by_cases hj : j < pre.length
    · refine ⟨fun _ i hi other hother => ?_, fun _ => ?_⟩
      · rw [List.getElem?_append_left (by omega)] at hother
        exact ones other (List.mem_append_left _ (List.mem_of_getElem? hother))
      · rw [List.getElem?_append_left hj] at hitem
        exact ⟨j, before j item hitem⟩
    · refine ⟨?_, fun h => ?_⟩
      · rintro ⟨index, hindex⟩
        by_cases heq : j = pre.length
        · rw [heq, hrangeAt, Option.some_inj] at hitem
          rw [← hitem, location] at hindex
          cases hindex
        · rw [List.getElem?_append_right (by omega),
            show j - pre.length = (j - pre.length - 1) + 1 by omega, List.getElem?_cons_succ] at hitem
          rw [after _ item hitem] at hindex
          cases hindex
      · have hone := h pre.length (by omega) range hrangeAt
        rw [hrange] at hone
        cases hone

theorem InteractionSection.head_owns {item : EntryInteraction} {total : Nat}
    (hitem : section_.items.head? = some item) (htotal : section_.items.length ≤ total) :
    item.location.Owns total 0 := by
  have hshape := section_.shape
  generalize section_.items = items at hshape hitem htotal
  rw [List.head?_eq_getElem?] at hitem
  cases hshape with
  | plain _ locations =>
    rw [locations 0 item hitem]
    rfl
  | @ranged pre post range _ _ _ location before _ =>
    cases pre with
    | cons other pre =>
      rw [before 0 item hitem]
      rfl
    | nil =>
      rw [← Option.some_inj.mp hitem, location]
      rw [List.nil_append, List.length_cons] at htotal
      show 0 ≤ 0 ∧ 0 < 0 + (total - (0 + post.length))
      omega

end

/-! ## the positions of a clause -/

/-- the positions that a location stands for in a section of `n` items -/
def InteractionLocation.positions (n : Nat) : InteractionLocation → List Nat
  | .fromStart index => [index]
  | .range start singletonCount => List.range' start (n - singletonCount)
  | .fromEnd distance => [n - distance]

/-- `n` items can stand for the clause: as many as it has, or as many more as its range admits -/
def Admits (cardinalities : List ResolvedCardinality) (n : Nat) : Prop :=
  ((∀ cardinality ∈ cardinalities, cardinality = .one) → n = cardinalities.length) ∧
    ∀ bounds, .range bounds ∈ cardinalities →
      bounds.minimum ≤ (n : Int) - (cardinalities.length - 1 : Nat) ∧
        (n : Int) - (cardinalities.length - 1 : Nat) ≤ bounds.maximum

theorem Admits.singletons_le {cardinalities : List ResolvedCardinality} {n : Nat}
    (h : Admits cardinalities n) {bounds : RangeBounds} (hrange : .range bounds ∈ cardinalities) :
    cardinalities.length - 1 ≤ n := by
  have hminimum := (h.2 bounds hrange).1
  have hnonneg := bounds.nonneg
  omega

theorem sectionRanges_nil {items : List (String × ResolvedCardinality)}
    (h : sectionRanges items = []) : ∀ item ∈ items, item.2 = .one := by
  intro item hitem
  unfold sectionRanges at h
  rw [List.map_eq_nil_iff, List.filter_eq_nil_iff] at h
  obtain ⟨j, hj⟩ := List.mem_iff_getElem?.mp hitem
  exact eq_one_of_not_isRange (h (item, j) (List.mem_zipIdx_iff_getElem?.mpr hj))

theorem length_sectionRanges (items : List (String × ResolvedCardinality)) :
    (sectionRanges items).length = (items.filter fun item => item.2.isRange).length := by
  have hcount : ∀ start, ((items.zipIdx start).filter fun item => item.1.2.isRange).length =
      (items.filter fun item => item.2.isRange).length := by
    induction items with
    | nil => exact fun _ => rfl
    | cons item items ih =>
      intro start
      rw [List.zipIdx_cons, List.filter_cons, List.filter_cons]
      split_ifs
      · rw [List.length_cons, List.length_cons, ih]
      · exact ih _
  unfold sectionRanges
  rw [List.length_map]
  exact hcount 0

/-- the singletons before a range, the range and the singletons after it follow each other -/
theorem flatMap_positions_range {len r n : Nat} (hr : r < len) (hn : len - 1 ≤ n) :
    ((List.range len).map (locationAt len (some r))).flatMap
      (InteractionLocation.positions n) = List.range n := by
  have hsplit : List.range len =
      List.range r ++ (r :: List.range' (r + 1) (len - 1 - r)) := by
    rw [List.range_eq_range', List.range_eq_range', ← List.range'_succ,
      show len - 1 - r + 1 = len - r by omega]
    have happend := @List.range'_append_1 0 r (len - r)
    rw [Nat.zero_add] at happend
    rw [happend]
    congr 1
    omega
  have hbefore : (List.range r).flatMap
      (fun i => (locationAt len (some r) i).positions n) = List.range r := by
    have hone : ∀ i ∈ List.range r, (locationAt len (some r) i).positions n = [i] := by
      intro i hi
      rw [locationAt, if_pos (List.mem_range.mp hi)]
      rfl
    rw [List.flatMap_congr hone, List.flatMap_singleton']
  have hafter : (List.range' (r + 1) (len - 1 - r)).flatMap
      (fun i => (locationAt len (some r) i).positions n) =
        List.range' (n - (len - 1 - r)) (len - 1 - r) := by
    have hone : ∀ i ∈ List.range' (r + 1) (len - 1 - r),
        (locationAt len (some r) i).positions n = [n - (len - i)] := by
      intro i hi
      obtain ⟨hlow, _⟩ := List.mem_range'_1.mp hi
      rw [locationAt, if_neg (by omega), if_neg (by omega)]
      rfl
    rw [List.flatMap_congr hone, ← List.map_eq_flatMap]
    apply List.ext_getElem
    · rw [List.length_map, List.length_range', List.length_range']
    · intro i hi hi'
      rw [List.length_range'] at hi'
      rw [List.getElem_map, List.getElem_range', List.getElem_range']
      omega
  rw [List.flatMap_map, hsplit, List.flatMap_append, List.flatMap_cons, hbefore, hafter]
  rw [locationAt, if_neg (Nat.lt_irrefl r), if_pos rfl]
  show List.range r ++ (List.range' r (n - (len - 1)) ++ _) = _
  have hmid := @List.range'_append_1 r (n - (len - 1)) (len - 1 - r)
  have hall := @List.range'_append_1 0 r (n - (len - 1) + (len - 1 - r))
  rw [Nat.zero_add] at hall
  rw [show n - (len - 1 - r) = r + (n - (len - 1)) by omega, hmid, List.range_eq_range', hall,
    List.range_eq_range']
  congr 1
  omega

/-- **The planned locations of a clause stand for each of its positions once, in its order.** -/
theorem interactionLocations_cover {items : List (String × ResolvedCardinality)}
    {locations : List InteractionLocation} (h : interactionLocations items = .ok locations)
    {n : Nat} (hn : Admits (items.map Prod.snd) n) :
    locations.flatMap (InteractionLocation.positions n) = List.range n := by
  unfold interactionLocations at h
  cases hranges : sectionRanges items with
  | nil =>
    rw [hranges] at h
    rw [← Except.ok.inj h]
    have hlen : n = items.length := by
      have hone := hn.1 fun cardinality hmem => by
        obtain ⟨item, hitem, rfl⟩ := List.mem_map.mp hmem
        exact sectionRanges_nil hranges item hitem
      rwa [List.length_map] at hone
    rw [List.flatMap_map, hlen]
    exact List.flatMap_singleton' _
  | cons found rest =>
    obtain ⟨handle, r⟩ := found
    obtain ⟨pre, item, post, rfl, hpre, hrange, _⟩ := sectionRanges_eq hranges
    rw [hranges] at h
    cases rest with
    | cons _ _ => cases h
    | nil =>
      rw [← Except.ok.inj h]
      apply flatMap_positions_range
      · rw [List.length_append, List.length_cons]
        omega
      · obtain ⟨bounds, hbounds⟩ : ∃ bounds, item.2 = .range bounds := by
          cases hcard : item.2 with
          | one =>
            rw [hcard] at hrange
            cases hrange
          | range bounds => exact ⟨bounds, rfl⟩
        have hmem : .range bounds ∈ (pre ++ item :: post).map Prod.snd := by
          rw [← hbounds]
          exact List.mem_map_of_mem (List.mem_append_right _ List.mem_cons_self)
        have hle := hn.singletons_le hmem
        rwa [List.length_map] at hle

/-- a clause with at most one range is planned -/
theorem exists_planInteractionLocations {items : List (String × ResolvedCardinality)}
    (h : (items.filter fun item => item.2.isRange).length ≤ 1)
    (actorName entryName section_ : String) : ∃ locations,
      planInteractionLocations actorName entryName section_ items = .ok locations ∧
        interactionLocations items = .ok locations := by
  have hlocations : ∃ locations, interactionLocations items = .ok locations := by
    rw [← length_sectionRanges] at h
    unfold interactionLocations
    cases hranges : sectionRanges items with
    | nil => exact ⟨_, rfl⟩
    | cons found rest =>
      cases rest with
      | nil => exact ⟨_, rfl⟩
      | cons other rest =>
        rw [hranges, List.length_cons, List.length_cons] at h
        omega
  obtain ⟨locations, hlocations⟩ := hlocations
  refine ⟨locations, ?_, hlocations⟩
  unfold planInteractionLocations
  rw [hlocations]

end Argent.Model
