import Argent.Model.PackedWidth
import Mathlib.Data.Finset.Card

/-!
# Packed widths, whatever the states refer to

* `StateContext`          tables in which the states that fields hold are known;
* `StateTables.expansion`      fields as items that expand into the fields of the states they hold;
* `packedLayoutFieldLenInner_isSome`      the measurement ends, whatever the states refer to;
* `packedLayoutFieldLen_spec`      **a width is the sum of the leaves, and only recursion, an unsupported
  leaf or an overflow prevent it**.
-/

set_option linter.unusedSectionVars false

namespace Argent.Layout
open Argent.Fallible Argent.Resolve

/-! ## fields as items -/

/-- the fields that are stored for a state -/
def StateTables.members (model : StateTables) (target : SourceStateId) : List FieldSite :=
  match model.storageStateBySource target with
  | .ok state => fieldSites (model.storageSourceId target) state
  | .error _ => []

/-- a field has a width, or holds a state -/
def StateTables.expansion (model : StateTables) : Expansion FieldSite SourceStateId where
  width site := (packedFieldLen site.ty).toOption
  target site :=
    if site.ty.array.isSome then none
    else (model.fieldTarget site.owner site.index site.field).toOption.join
  members := model.members

/-- the tables of a compilation: the states that fields hold are known, and so is what they are
stored as -/
structure StateContext extends StateTables where
  targets_known : ∀ owner index field target, toStateTables.fieldTarget owner index field =
    .ok (some target) → ∃ state, toStateTables.storageStateBySource target = .ok state

/-- the sum of widths -/
def total (widths : List Nat) : Nat := widths.foldl (· + ·) 0

theorem foldl_add (widths : List Nat) (sum : Nat) :
    widths.foldl (· + ·) sum = sum + total widths := by
  unfold total
  induction widths generalizing sum with
  | nil => rfl
  | cons n widths ih =>
    rw [List.foldl_cons, List.foldl_cons, ih, ih (0 + n)]
    omega

theorem total_append (first rest : List Nat) : total (first ++ rest) = total first + total rest := by
  unfold total
  rw [List.foldl_append, foldl_add]
  rfl

theorem total_singleton (n : Nat) : total [n] = n := Nat.zero_add n

/-! ## one field -/

section
variable {model : StateContext} {site : FieldSite} {t : SourceStateId} {fuel n : Nat}
  {visiting : List SourceStateId} {result : Except String Nat} {ls : List Nat} {name : String}
  {sites : List FieldSite} {measure : FieldSite → Option (Except String Nat)}

theorem packedFieldLen_lt {ty : TypeRef} (h : packedFieldLen ty = .ok n) : n < 2 ^ 64 := by
  unfold packedFieldLen at h
  split_ifs at h
  · cases h
    decide
  · split at h
    all_goals first
      | cases h
        decide
      | cases h
        exact Fin.isLt _
      | cases h

theorem lt_of_width (h : model.expansion.width site = some n) : n < 2 ^ 64 := by
  have hwidth : (packedFieldLen site.ty).toOption = some n := h
  cases hlen : packedFieldLen site.ty with
  | error error =>
    rw [hlen] at hwidth
    cases hwidth
  | ok len =>
    rw [hlen] at hwidth
    rw [← Option.some_inj.mp hwidth]
    exact packedFieldLen_lt hlen

theorem error_of_width (h : model.expansion.width site = none) :
    ∃ error, packedFieldLen site.ty = .error error := by
  cases hlen : packedFieldLen site.ty with
  | error error => exact ⟨error, rfl⟩
  | ok len =>
    have hwidth : (packedFieldLen site.ty).toOption = none := h
    rw [hlen] at hwidth
    cases hwidth

theorem inner_leaf (h : model.expansion.width site = some n) :
    packedLayoutFieldLenInner model.toStateTables fuel visiting site = some (.ok n) := by
  have hlen : packedFieldLen site.ty = .ok n := by
    have hwidth : (packedFieldLen site.ty).toOption = some n := h
    cases hlen : packedFieldLen site.ty with
    | error error =>
      rw [hlen] at hwidth
      cases hwidth
    | ok len =>
      rw [hlen] at hwidth
      exact congrArg _ (Option.some_inj.mp hwidth)
  unfold packedLayoutFieldLenInner
  rw [hlen]

theorem inner_stuck (h : model.expansion.Stuck site) :
    ∃ error, packedLayoutFieldLenInner model.toStateTables fuel visiting site =
      some (.error error) := by
  obtain ⟨error, hlen⟩ := error_of_width h.1
  have htarget : (if site.ty.array.isSome then none
    else (model.fieldTarget site.owner site.index site.field).toOption.join) = none := h.2
  unfold packedLayoutFieldLenInner
  rw [hlen]
  dsimp only
  split_ifs at htarget ⊢
  · exact ⟨_, rfl⟩
  · cases hfield : model.fieldTarget site.owner site.index site.field with
    | error unresolved => exact ⟨_, rfl⟩
    | ok found =>
      rw [hfield] at htarget
      cases found with
      | none => exact ⟨_, rfl⟩
      | some t => cases htarget

theorem fieldTarget_of_expands (h : model.expansion.Expands site t) : site.ty.array.isSome = false ∧
    model.fieldTarget site.owner site.index site.field = .ok (some t) := by
  have htarget : (if site.ty.array.isSome then none
    else (model.fieldTarget site.owner site.index site.field).toOption.join) = some t := h.2
  split_ifs at htarget with harray
  refine ⟨eq_false_of_ne_true harray, ?_⟩
  cases hfield : model.fieldTarget site.owner site.index site.field with
  | error unresolved =>
    rw [hfield] at htarget
    cases htarget
  | ok found =>
    rw [hfield] at htarget
    exact congrArg Except.ok htarget

theorem inner_visited (h : model.expansion.Expands site t) (ht : t ∈ visiting) :
    ∃ error, packedLayoutFieldLenInner model.toStateTables fuel visiting site =
      some (.error error) := by
  obtain ⟨error, hlen⟩ := error_of_width h.1
  obtain ⟨harray, hfield⟩ := fieldTarget_of_expands h
  unfold packedLayoutFieldLenInner
  rw [hlen, harray, hfield]
  dsimp only
  rw [if_neg Bool.false_ne_true, if_pos ht]
  exact ⟨_, rfl⟩

theorem inner_zero (h : model.expansion.Expands site t) (ht : t ∉ visiting) :
    packedLayoutFieldLenInner model.toStateTables 0 visiting site = none := by
  obtain ⟨error, hlen⟩ := error_of_width h.1
  obtain ⟨harray, hfield⟩ := fieldTarget_of_expands h
  unfold packedLayoutFieldLenInner
  rw [hlen, harray, hfield]
  dsimp only
  rw [if_neg Bool.false_ne_true, if_neg ht]

theorem inner_succ (h : model.expansion.Expands site t) (ht : t ∉ visiting) :
    packedLayoutFieldLenInner model.toStateTables (fuel + 1) visiting site =
      sumWidths site.ty.name (packedLayoutFieldLenInner model.toStateTables fuel (t :: visiting))
        (model.members t) 0 := by
  obtain ⟨error, hlen⟩ := error_of_width h.1
  obtain ⟨harray, hfield⟩ := fieldTarget_of_expands h
  obtain ⟨state, hstate⟩ := model.targets_known _ _ _ _ hfield
  rw [packedLayoutFieldLenInner, hlen, harray, hfield]
  dsimp only
  rw [if_neg Bool.false_ne_true, if_neg ht, hstate]
  unfold StateTables.members
  rw [hstate]

/-! ## the measurement ends -/

theorem mem_targets_of_field {tables : StateTables} {owner : SourceStateId} {index : Nat}
    {field : String} (hfield : tables.fieldTarget owner index field = .ok (some t)) :
    t ∈ tables.targets := by
  have hmem : ∀ {α β : Type} [DecidableEq α] {l : List (α × β)} {a : α} {b : β},
      l.lookup a = some b → (a, b) ∈ l := by
    intro α β _ l a b hlookup
    obtain ⟨before, after, rfl, -⟩ := List.lookup_eq_some_iff.mp hlookup
    exact List.mem_append_right _ List.mem_cons_self
  unfold StateTables.fieldTarget at hfield
  refine List.mem_append.mpr ?_
  cases hid : tables.stateDeclIdBySource owner with
  | none =>
    rw [hid] at hfield
    have hlinked := hmem (Except.ok.inj hfield)
    exact .inr (List.mem_map_of_mem hlinked)
  | some ownerId =>
    rw [hid] at hfield
    dsimp only at hfield
    split at hfield
    · rename_i state array hbase
      cases hsource : tables.sourceStateIdByDecl state with
      | error e =>
        rw [hsource] at hfield
        cases hfield
      | ok source =>
        rw [hsource] at hfield
        obtain rfl := Option.some_inj.mp (Except.ok.inj hfield)
        unfold StateTables.sourceStateIdByDecl at hsource
        split_ifs at hsource
        dsimp only at hsource
        split at hsource
        · cases hsource
        · rename_i found hname
          obtain rfl := Except.ok.inj hsource
          exact .inl (List.mem_map_of_mem (hmem hname))
    · cases hfield
    · cases hfield

theorem mem_targets (h : model.expansion.Expands site t) : t ∈ model.targets :=
  mem_targets_of_field (fieldTarget_of_expands h).2

theorem sumWidths_isSome (h : ∀ site ∈ sites, ∃ result, measure site = some result) (sum : Nat) :
    ∃ result, sumWidths name measure sites sum = some result := by
  induction sites generalizing sum with
  | nil => exact ⟨_, rfl⟩
  | cons site sites ih =>
    obtain ⟨result, hresult⟩ := h site List.mem_cons_self
    rw [sumWidths, hresult]
    cases result with
    | error e => exact ⟨_, rfl⟩
    | ok len =>
      dsimp only
      split_ifs
      · exact ih (fun b hb => h b (List.mem_cons_of_mem _ hb)) _
      · exact ⟨_, rfl⟩

theorem card_sdiff_lt (hexpands : model.expansion.Expands site t) (ht : t ∉ visiting) :
    (model.targets.toFinset \ (t :: visiting).toFinset).card <
      (model.targets.toFinset \ visiting.toFinset).card := by
  have hmem : t ∈ model.targets.toFinset \ visiting.toFinset := Finset.mem_sdiff.mpr
    ⟨List.mem_toFinset.mpr (mem_targets hexpands), fun h => ht (List.mem_toFinset.mp h)⟩
  refine Finset.card_lt_card (Finset.ssubset_iff_of_subset ?_ |>.mpr ⟨t, hmem, fun h => ?_⟩)
  · refine Finset.sdiff_subset_sdiff (Finset.Subset.refl _) ?_
    rw [List.toFinset_cons]
    exact Finset.subset_insert _ _
  · exact (Finset.mem_sdiff.mp h).2 (List.mem_toFinset.mpr List.mem_cons_self)

/-- **The measurement ends**: each state around a field is another one. -/
theorem packedLayoutFieldLenInner_isSome
    (hfuel : (model.targets.toFinset \ visiting.toFinset).card ≤ fuel) (site : FieldSite) :
    ∃ result, packedLayoutFieldLenInner model.toStateTables fuel visiting site = some result := by
  induction fuel generalizing visiting site with
  | zero =>
    obtain ⟨n, hwidth⟩ | hstuck | ⟨t, hexpands⟩ := model.expansion.width_or_target site
    · exact ⟨_, inner_leaf hwidth⟩
    · obtain ⟨error, herror⟩ := @inner_stuck model site 0 visiting hstuck
      exact ⟨_, herror⟩
    · have ht : t ∈ visiting := by
        by_contra hnew
        have hlt := card_sdiff_lt hexpands hnew
        omega
      obtain ⟨error, herror⟩ := @inner_visited model site t 0 visiting hexpands ht
      exact ⟨_, herror⟩
  | succ fuel ih =>
    obtain ⟨n, hwidth⟩ | hstuck | ⟨t, hexpands⟩ := model.expansion.width_or_target site
    · exact ⟨_, inner_leaf hwidth⟩
    · obtain ⟨error, herror⟩ := @inner_stuck model site (fuel + 1) visiting hstuck
      exact ⟨_, herror⟩
    · by_cases ht : t ∈ visiting
      · obtain ⟨error, herror⟩ := @inner_visited model site t (fuel + 1) visiting hexpands ht
        exact ⟨_, herror⟩
      · have hlt := card_sdiff_lt hexpands ht
        rw [inner_succ hexpands ht]
        exact sumWidths_isSome (fun b _ => ih (by omega) b) 0

/-! ## a width is the sum of the leaves -/

theorem sumWidths_ok {sum : Nat} (hsum : sum < 2 ^ 64)
    (h : ∀ site ∈ sites, ∀ n, measure site = some (.ok n) →
      ∃ ls, model.expansion.Leaves [site] ls ∧ n = total ls)
    (hok : sumWidths name measure sites sum = some (.ok n)) :
    ∃ ls, model.expansion.Leaves sites ls ∧ n = sum + total ls ∧ n < 2 ^ 64 := by
  induction sites generalizing sum with
  | nil =>
    cases hok
    exact ⟨[], .nil, rfl, hsum⟩
  | cons site sites ih =>
    rw [sumWidths] at hok
    cases hfirst : measure site with
    | none =>
      rw [hfirst] at hok
      cases hok
    | some result =>
      rw [hfirst] at hok
      cases result with
      | error e => cases hok
      | ok len =>
        dsimp only at hok
        split_ifs at hok with hfits
        · obtain ⟨ls, hls, rfl⟩ := h site List.mem_cons_self len hfirst
          obtain ⟨ns, hns, rfl, hlt⟩ := ih hfits (fun b hb => h b (List.mem_cons_of_mem _ hb)) hok
          refine ⟨ls ++ ns, hls.cons hns, ?_, hlt⟩
          rw [total_append]
          omega
        · cases hok

theorem inner_ok_cases
    (h : packedLayoutFieldLenInner model.toStateTables fuel visiting site = some (.ok n)) :
    model.expansion.width site = some n ∨ ∃ t depth, model.expansion.Expands site t ∧
      t ∉ visiting ∧ fuel = depth + 1 ∧
      sumWidths site.ty.name (packedLayoutFieldLenInner model.toStateTables depth (t :: visiting))
        (model.members t) 0 = some (.ok n) := by
  obtain ⟨len, hwidth⟩ | hstuck | ⟨t, hexpands⟩ := model.expansion.width_or_target site
  · rw [inner_leaf hwidth] at h
    obtain rfl := Except.ok.inj (Option.some_inj.mp h)
    exact .inl hwidth
  · obtain ⟨error, herror⟩ := @inner_stuck model site fuel visiting hstuck
    rw [herror] at h
    cases h
  · by_cases ht : t ∈ visiting
    · obtain ⟨error, herror⟩ := @inner_visited model site t fuel visiting hexpands ht
      rw [herror] at h
      cases h
    · cases fuel with
      | zero =>
        rw [inner_zero hexpands ht] at h
        cases h
      | succ depth =>
        rw [inner_succ hexpands ht] at h
        exact .inr ⟨t, depth, hexpands, ht, rfl, h⟩

/-- a field that is measured has the width of its leaves, whatever is around it -/
theorem packedLayoutFieldLenInner_ok
    (h : packedLayoutFieldLenInner model.toStateTables fuel visiting site = some (.ok n)) :
    ∃ ls, model.expansion.Leaves [site] ls ∧ n = total ls ∧ n < 2 ^ 64 := by
  induction fuel generalizing visiting site n with
  | zero =>
    obtain hwidth | ⟨t, depth, -, -, hdepth, -⟩ := inner_ok_cases h
    · exact ⟨[n], .leaf hwidth .nil, (total_singleton n).symm, lt_of_width hwidth⟩
    · cases hdepth
  | succ fuel ih =>
    obtain hwidth | ⟨t, depth, hexpands, -, hdepth, hsum⟩ := inner_ok_cases h
    · exact ⟨[n], .leaf hwidth .nil, (total_singleton n).symm, lt_of_width hwidth⟩
    · obtain rfl := Nat.succ_inj.mp hdepth
      obtain ⟨ls, hls, htotal, hlt⟩ := sumWidths_ok (by decide) (fun b _ m hm => by
        obtain ⟨ns, hns, htotal, -⟩ := ih hm
        exact ⟨ns, hns, htotal⟩) hsum
      rw [Nat.zero_add] at htotal
      exact ⟨ls, (Expansion.Leaves.of_expands hexpands).mpr hls, htotal, hlt⟩

/-! ## a sum that fits is found -/

theorem sumWidths_fits {sum : Nat} (hleaves : model.expansion.Leaves sites ls)
    (hfits : sum + total ls < 2 ^ 64)
    (h : ∀ site ∈ sites, ∀ ns result, model.expansion.Leaves [site] ns → total ns < 2 ^ 64 →
      measure site = some result → result = .ok (total ns))
    (hsome : sumWidths name measure sites sum = some result) : result = .ok (sum + total ls) := by
  induction sites generalizing sum ls with
  | nil =>
    cases hleaves
    cases hsome
    rfl
  | cons site sites ih =>
    obtain ⟨first, rest, rfl, hfirst, hrest⟩ := hleaves.uncons
    rw [total_append] at hfits
    rw [sumWidths] at hsome
    cases hmeasure : measure site with
    | none =>
      rw [hmeasure] at hsome
      cases hsome
    | some found =>
      obtain rfl := h site List.mem_cons_self first found hfirst (by omega) hmeasure
      rw [hmeasure] at hsome
      dsimp only at hsome
      rw [if_pos (by omega)] at hsome
      rw [total_append, ← Nat.add_assoc]
      exact ih hrest (by omega) (fun b hb => h b (List.mem_cons_of_mem _ hb)) hsome

/-- a field whose leaves fit is measured, when it holds none of the states around it -/
theorem packedLayoutFieldLenInner_fits (hleaves : model.expansion.Leaves [site] ls)
    (hfits : total ls < 2 ^ 64) (hapart : ∀ v ∈ visiting, ¬ model.expansion.Reaches site v)
    (hsome : packedLayoutFieldLenInner model.toStateTables fuel visiting site = some result) :
    result = .ok (total ls) := by
  induction fuel generalizing visiting site ls result with
  | zero =>
    obtain ⟨n, hwidth⟩ | hstuck | ⟨t, hexpands⟩ := model.expansion.width_or_target site
    · rw [inner_leaf hwidth] at hsome
      obtain rfl := hleaves.unique (.leaf hwidth .nil)
      rw [total_singleton]
      exact (Option.some_inj.mp hsome).symm
    · exact absurd hstuck hleaves.not_stuck
    · have ht : t ∉ visiting := fun ht => hapart t ht ⟨t, hexpands, .refl⟩
      rw [inner_zero hexpands ht] at hsome
      cases hsome
  | succ fuel ih =>
    obtain ⟨n, hwidth⟩ | hstuck | ⟨t, hexpands⟩ := model.expansion.width_or_target site
    · rw [inner_leaf hwidth] at hsome
      obtain rfl := hleaves.unique (.leaf hwidth .nil)
      rw [total_singleton]
      exact (Option.some_inj.mp hsome).symm
    · exact absurd hstuck hleaves.not_stuck
    · have ht : t ∉ visiting := fun ht => hapart t ht ⟨t, hexpands, .refl⟩
      rw [inner_succ hexpands ht] at hsome
      have hmembers := (Expansion.Leaves.of_expands hexpands).mp hleaves
      have hsum := sumWidths_fits hmembers (by omega) (fun b hb ns found hns hlt hfound => ?_) hsome
      · rwa [Nat.zero_add] at hsum
      · refine ih hns hlt (fun v hv hreach => ?_) hfound
        obtain ⟨s, hs, hbelow⟩ := hreach
        have hfirst : model.expansion.Holds t s := ⟨b, hb, hs⟩
        obtain rfl | hv := List.mem_cons.mp hv
        · -- the state around the field would reach itself
          exact hleaves.not_recursive
            ⟨v, ⟨v, hexpands, .refl⟩, Relation.TransGen.head'_iff.mpr ⟨s, hfirst, hbelow⟩⟩
        · exact hapart v hv ⟨t, hexpands, .head hfirst hbelow⟩

/-! ## the width of a field -/

/-- a field with leaves that do not fit is as wide as no `usize` -/
def Overflows (model : StateContext) (site : FieldSite) : Prop :=
  ∃ ls, model.expansion.Leaves [site] ls ∧ 2 ^ 64 ≤ total ls

theorem targets_finite (model : StateContext) : {t | ∃ site, model.expansion.Expands site t}.Finite := by
  refine (List.finite_toSet model.targets).subset ?_
  rintro t ⟨site, hexpands⟩
  exact mem_targets hexpands

/-- **The width of a field is measured for every graph of states.  There is an error if and only if the
field reaches a state that reaches itself or a leaf without a fixed width, or its leaves do not fit
together; the width is else their sum, and it is the same one wherever a state occurs.** -/
theorem packedLayoutFieldLen_spec (model : StateContext) (ty : TypeRef) (owner : SourceStateId)
    (index : Nat) (field : String) :
    ∃ result, packedLayoutFieldLen model.toStateTables ty owner index field = some result ∧
      ((∃ error, result = .error error) ↔
        model.expansion.Recursive ⟨ty, owner, index, field⟩ ∨
        model.expansion.Unfixed ⟨ty, owner, index, field⟩ ∨
        Overflows model ⟨ty, owner, index, field⟩) ∧
      (∀ n, result = .ok n →
        ∃ ls, model.expansion.Leaves [⟨ty, owner, index, field⟩] ls ∧ n = total ls) ∧
      ∀ target first second depth depth' around around' n n',
        model.expansion.Expands first target → model.expansion.Expands second target →
        packedLayoutFieldLenInner model.toStateTables depth around first = some (.ok n) →
        packedLayoutFieldLenInner model.toStateTables depth' around' second = some (.ok n') →
        n = n' := by
  have hfuel : (model.targets.toFinset \ ([] : List SourceStateId).toFinset).card ≤
      model.targets.length := by
    rw [List.toFinset_nil, Finset.sdiff_empty]
    exact List.toFinset_card_le _
  obtain ⟨result, hresult⟩ := packedLayoutFieldLenInner_isSome hfuel ⟨ty, owner, index, field⟩
  refine ⟨result, hresult, ⟨?_, ?_⟩, ?_, ?_⟩
  · rintro ⟨error, rfl⟩
    by_contra hgood
    obtain ⟨hrec, hrest⟩ := not_or.mp hgood
    obtain ⟨hfixed, hover⟩ := not_or.mp hrest
    obtain ⟨ls, hls⟩ := Expansion.leaves_of_finite (targets_finite model) hrec hfixed
    have hfits : total ls < 2 ^ 64 := by
      by_contra hlarge
      exact hover ⟨ls, hls, by omega⟩
    cases packedLayoutFieldLenInner_fits hls hfits (fun v hv => absurd hv List.not_mem_nil) hresult
  · intro hbad
    cases result with
    | error error => exact ⟨error, rfl⟩
    | ok n =>
      obtain ⟨ls, hls, rfl, hlt⟩ := packedLayoutFieldLenInner_ok hresult
      obtain hrec | hfixed | ⟨ns, hns, hle⟩ := hbad
      · exact absurd hrec hls.not_recursive
      · exact absurd hfixed hls.not_unfixed
      · rw [hns.unique hls] at hle
        omega
  · rintro n rfl
    obtain ⟨ls, hls, hn, -⟩ := packedLayoutFieldLenInner_ok hresult
    exact ⟨ls, hls, hn⟩
  · intro target first second depth depth' around around' n n' hfirst hsecond hn hn'
    obtain ⟨ls, hls, rfl, -⟩ := packedLayoutFieldLenInner_ok hn
    obtain ⟨ns, hns, rfl, -⟩ := packedLayoutFieldLenInner_ok hn'
    have hleaves := (Expansion.Leaves.of_expands hfirst).mp hls
    rw [hleaves.unique ((Expansion.Leaves.of_expands hsecond).mp hns)]

end

/-! ## a state that leads to a recursive one -/

def sourceOf (index : Nat) : SourceStateId := ⟨.source "app.ag" .state index⟩

/-- a type that is the name of a state -/
def namedType (name : String) : TypeRef := ⟨name, none, none⟩

/-- `state Node { Node next; }`, `state Head { Node first; }` and `state Owner { Head list; }` -/
def listTables : StateTables where
  states := [("Node", ⟨"Node", [⟨namedType "Node", "next"⟩]⟩),
    ("Head", ⟨"Head", [⟨namedType "Node", "first"⟩]⟩),
    ("Owner", ⟨"Owner", [⟨namedType "Head", "list"⟩]⟩)]
  linkedStates := []
  stateNamesBySource := [(sourceOf 0, "Node"), (sourceOf 1, "Head"), (sourceOf 2, "Owner")]
  stateDeclIdsBySource := [(sourceOf 0, ⟨0, .state, 0⟩), (sourceOf 1, ⟨0, .state, 1⟩),
    (sourceOf 2, ⟨0, .state, 2⟩)]
  storageSourceBySource := []
  linkedFieldSources := []
  stateFields := [((⟨0, .state, 0⟩, 0), ⟨.state ⟨0, .state, 0⟩, none⟩),
    ((⟨0, .state, 1⟩, 0), ⟨.state ⟨0, .state, 0⟩, none⟩),
    ((⟨0, .state, 2⟩, 0), ⟨.state ⟨0, .state, 1⟩, none⟩)]
  declarationPath _ := "app.ag"
  asStr _ := "Owner"

theorem listTables_known (owner : SourceStateId) (index : Nat) (field : String)
    (target : SourceStateId) (h : listTables.fieldTarget owner index field = .ok (some target)) :
    ∃ state, listTables.storageStateBySource target = .ok state := by
  have hmem : target ∈ [sourceOf 0, sourceOf 1, sourceOf 2] := mem_targets_of_field h
  obtain rfl | hmem := List.mem_cons.mp hmem
  · exact ⟨_, rfl⟩
  · obtain rfl | hmem := List.mem_cons.mp hmem
    · exact ⟨_, rfl⟩
    · obtain rfl := List.mem_singleton.mp hmem
      exact ⟨_, rfl⟩

def listContext : StateContext := ⟨listTables, listTables_known⟩

/-- the field of `Owner` -/
def listSite : FieldSite := ⟨namedType "Head", sourceOf 2, 0, "list"⟩

theorem listSite_expands {t : SourceStateId} : listContext.expansion.Expands listSite t ↔
    t = sourceOf 1 := by
  constructor
  · intro h
    exact (h.unique ⟨rfl, rfl⟩)
  · rintro rfl
    exact ⟨rfl, rfl⟩

theorem listContext_holds {t : SourceStateId} (h : listContext.expansion.Holds (sourceOf 0) t ∨
    listContext.expansion.Holds (sourceOf 1) t) : t = sourceOf 0 := by
  obtain ⟨b, hb, hexpands⟩ | ⟨b, hb, hexpands⟩ := h
  · obtain rfl := List.mem_singleton.mp hb
    exact hexpands.unique ⟨rfl, rfl⟩
  · obtain rfl := List.mem_singleton.mp hb
    exact hexpands.unique ⟨rfl, rfl⟩

theorem listContext_below {s t : SourceStateId} (hs : s = sourceOf 0 ∨ s = sourceOf 1)
    (h : Relation.ReflTransGen listContext.expansion.Holds s t) : t = sourceOf 0 ∨ t = s := by
  induction h with
  | refl => exact .inr rfl
  | tail _ hlast ih =>
    obtain rfl | rfl := ih
    · exact .inl (listContext_holds (.inl hlast))
    · obtain rfl | rfl := hs
      · exact .inl (listContext_holds (.inl hlast))
      · exact .inl (listContext_holds (.inr hlast))

/-- The field of `Owner` is not measured, although its type does not reach itself, reaches no leaf
without a width and has no width that could overflow: `Node` reaches itself. -/
theorem recursive_below : (∃ error, packedLayoutFieldLen listContext.toStateTables (namedType "Head")
      (sourceOf 2) 0 "list" = some (.error error)) ∧
    ¬ (∃ t, listContext.expansion.Expands listSite t ∧
      Relation.TransGen listContext.expansion.Holds t t) ∧
    ¬ listContext.expansion.Unfixed listSite ∧ ¬ Overflows listContext listSite := by
  have hnode : listContext.expansion.Holds (sourceOf 0) (sourceOf 0) :=
    ⟨_, List.mem_singleton_self _, rfl, rfl⟩
  have hhead : listContext.expansion.Holds (sourceOf 1) (sourceOf 0) :=
    ⟨_, List.mem_singleton_self _, rfl, rfl⟩
  refine ⟨⟨_, rfl⟩, ?_, ?_, ?_⟩
  · rintro ⟨t, hexpands, hcycle⟩
    obtain rfl := listSite_expands.mp hexpands
    obtain ⟨s, hfirst, hrest⟩ := Relation.TransGen.head'_iff.mp hcycle
    obtain rfl := listContext_holds (.inr hfirst)
    obtain heq | heq := listContext_below (.inl rfl) hrest
    · exact absurd heq (by decide)
    · exact absurd heq (by decide)
  · rintro (hstuck | ⟨t, ⟨s, hexpands, hreach⟩, b, hb, hstuck⟩)
    · exact absurd hstuck.2 (by decide)
    · obtain rfl := listSite_expands.mp hexpands
      obtain rfl | rfl := listContext_below (.inr rfl) hreach
      · obtain rfl := List.mem_singleton.mp hb
        exact absurd hstuck.2 (by decide)
      · obtain rfl := List.mem_singleton.mp hb
        exact absurd hstuck.2 (by decide)
  · rintro ⟨ls, hls, -⟩
    exact hls.not_recursive ⟨sourceOf 0, ⟨sourceOf 1, listSite_expands.mpr rfl, .single hhead⟩,
      .single hnode⟩

end Argent.Layout
