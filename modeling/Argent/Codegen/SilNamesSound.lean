import Argent.Codegen.SilNames
import Argent.Resolve.OutputNamesDistinct

/-!
# Locals do not capture

* `freshName_isSome`      a free suffix is found;
* `LocalScope.Named`      what holds of the names while the locals are named;
* `LocalScope.emittedNames_hygienic`      **locals share a name exactly when they share a spelling, and a
  name of something else only when it is their own spelling**;
* `selectedDeclarationNames_kept`      the output names are those of the source, or generated.
-/

set_option linter.unusedSectionVars false

namespace Argent.Codegen.SilNames
open Argent.Fallible Argent.Resolve

/-! ## free names -/

section
variable {occupied authored : List String} {base name found : String} {fuel suffix : Nat}

theorem suffixed_injective (base : String) : Function.Injective (suffixed base) := by
  intro m n h
  have hlist := congrArg String.toList h
  simp only [suffixed, String.toList_append, List.append_assoc] at hlist
  have hdigits := List.append_cancel_left (List.append_cancel_left hlist)
  exact Model.toString_injective (String.toList_inj.mp hdigits)

theorem freshName_ok (h : freshName occupied authored base fuel suffix name = some found) :
    found ∉ occupied := by
  induction fuel generalizing suffix name with
  | zero =>
    unfold freshName at h
    split_ifs at h with htaken
    rw [← Option.some_inj.mp h]
    exact (not_or.mp htaken).1
  | succ fuel ih =>
    unfold freshName at h
    split_ifs at h with htaken
    · exact ih h
    · rw [← Option.some_inj.mp h]
      exact (not_or.mp htaken).1

theorem freshName_none (h : freshName occupied authored base fuel suffix name = none) :
    name ∈ occupied ++ authored ∧ ∀ i < fuel, suffixed base (suffix + i) ∈ occupied ++ authored := by
  induction fuel generalizing suffix name with
  | zero =>
    unfold freshName at h
    split_ifs at h with htaken
    refine ⟨?_, fun i hi => absurd hi (Nat.not_lt_zero i)⟩
    obtain htaken | ⟨-, htaken⟩ := htaken
    · exact List.mem_append_left _ htaken
    · exact List.mem_append_right _ htaken
  | succ fuel ih =>
    unfold freshName at h
    split_ifs at h with htaken
    obtain ⟨hfirst, hrest⟩ := ih h
    refine ⟨?_, fun i hi => ?_⟩
    · obtain htaken | ⟨-, htaken⟩ := htaken
      · exact List.mem_append_left _ htaken
      · exact List.mem_append_right _ htaken
    · cases i with
      | zero => exact hfirst
      | succ i =>
        have hnext := hrest i (Nat.lt_of_succ_lt_succ hi)
        rwa [show suffix + 1 + i = suffix + (i + 1) by omega] at hnext

/-- **Among more suffixes than names, one is free.** -/
theorem freshName_isSome : ∃ found, freshName occupied authored base
    (occupied.length + authored.length + 1) suffix name = some found := by
  cases h : freshName occupied authored base (occupied.length + authored.length + 1) suffix name with
  | some found => exact ⟨found, rfl⟩
  | none =>
    have htaken := (freshName_none h).2
    have hnodup : ((List.range (occupied.length + authored.length + 1)).map fun i =>
        suffixed base (suffix + i)).Nodup :=
      List.nodup_range.map ((suffixed_injective base).comp (add_right_injective suffix))
    have hsub : ((List.range (occupied.length + authored.length + 1)).map fun i =>
        suffixed base (suffix + i)) ⊆ occupied ++ authored := by
      intro candidate hcandidate
      obtain ⟨i, hi, rfl⟩ := List.mem_map.mp hcandidate
      exact htaken i (List.mem_range.mp hi)
    have hle := (hnodup.subperm hsub).length_le
    rw [List.length_map, List.length_range, List.length_append] at hle
    omega

end

/-! ## the names of a body -/

namespace LocalScope
variable {scope : LocalScope} {naming next : Naming} {item : LocalId × String}
  {done : List (LocalId × String)} {source source' name name' : String} {id id' : LocalId}

/-- a body of a function or of a function of an actor -/
def IsFunctionBody (scope : LocalScope) : Prop :=
  scope.root = .declaration ∨ ∃ index, scope.root = .actorFunction index

/-- a spelling that a local shares with a constant or with a field of the owned state -/
def Shadows (scope : LocalScope) (source : String) : Prop :=
  (∃ const ∈ scope.displayNames, const.1.kind = .const ∧ scope.sourceName const.1 = source) ∨
    source ∈ scope.ownedFields

/-- the spelling of a constant or of a field that keeps its name -/
def Keeps (scope : LocalScope) (source : String) : Prop :=
  source ∈ scope.constNames ∨ source ∈ scope.ownedFields

/-- the names after the locals in `done` -/
structure Named (scope : LocalScope) (done : List (LocalId × String)) (naming : Naming) : Prop where
  /-- what is reserved stays occupied -/
  reserved : ∀ name ∈ scope.reserved, name ∈ naming.occupied
  occupied : ∀ source name, naming.sourceNames.lookup source = some name → name ∈ naming.occupied
  /-- two spellings have two names -/
  apart : ∀ source source' name, naming.sourceNames.lookup source = some name →
    naming.sourceNames.lookup source' = some name → source = source'
  /-- only what shadows has a reserved name -/
  fresh : ∀ source name, naming.sourceNames.lookup source = some name → name ∈ scope.reserved →
    scope.Keeps source
  /-- the locals have the names of their spellings -/
  named : naming.localNames.map Prod.fst = done.map Prod.fst
  spelled : ∀ id name, (id, name) ∈ naming.localNames →
    ∃ source, (id, source) ∈ done ∧ naming.sourceNames.lookup source = some name

theorem lookup_cons_cases {names : List (String × String)} {first : String × String}
    (h : (first :: names).lookup source = some name) :
    source = first.1 ∧ name = first.2 ∨ source ≠ first.1 ∧ names.lookup source = some name := by
  by_cases heq : source = first.1
  · rw [List.lookup_cons, beq_iff_eq.mpr heq] at h
    exact .inl ⟨heq, (Option.some_inj.mp h).symm⟩
  · rw [List.lookup_cons, beq_eq_false_iff_ne.mpr heq] at h
    exact .inr ⟨heq, h⟩

theorem lookup_map_self {names : List String} {source name : String}
    (h : (names.map fun name => (name, name)).lookup source = some name) :
    name = source ∧ source ∈ names := by
  induction names with
  | nil => cases h
  | cons first names ih =>
    rw [List.map_cons] at h
    obtain ⟨heq, rfl⟩ | ⟨-, hrest⟩ := lookup_cons_cases h
    · exact ⟨heq.symm, heq ▸ List.mem_cons_self⟩
    · obtain ⟨heq, hmem⟩ := ih hrest
      exact ⟨heq, List.mem_cons_of_mem _ hmem⟩

theorem lookup_initial (h : scope.initial.sourceNames.lookup source = some name) :
    name = source ∧ scope.Keeps source := by
  have hinitial : scope.initial.sourceNames =
      (scope.ownedFields ++ scope.constNames).map fun name => (name, name) := by
    rw [List.map_append]
    rfl
  rw [hinitial] at h
  obtain ⟨rfl, hmem⟩ := lookup_map_self h
  refine ⟨rfl, ?_⟩
  obtain hmem | hmem := List.mem_append.mp hmem
  · exact .inr hmem
  · exact .inl hmem

theorem Keeps.reserved (h : scope.Keeps source) : source ∈ scope.reserved := by
  unfold LocalScope.reserved
  obtain hconst | hfield := h
  · obtain ⟨const, hmem, rfl⟩ := List.mem_map.mp hconst
    have hdisplay := List.mem_map_of_mem (f := Prod.snd) (List.mem_filter.mp hmem).1
    simp only [List.mem_append]
    exact .inl (.inl (.inl (.inl hdisplay)))
  · exact List.mem_append_right _ hfield

theorem Named.initial (scope : LocalScope) : scope.Named [] scope.initial where
  reserved name h := h
  occupied source name h := by
    obtain ⟨rfl, hkeeps⟩ := lookup_initial h
    exact hkeeps.reserved
  apart source source' name h h' := by
    obtain ⟨rfl, -⟩ := lookup_initial h
    exact (lookup_initial h').1
  fresh source name h _ := (lookup_initial h).2
  named := rfl
  spelled id name h := absurd h List.not_mem_nil

theorem Named.again (h : scope.Named done naming)
    (hlookup : naming.sourceNames.lookup item.2 = some name) :
    scope.Named (done ++ [item])
      { naming with localNames := naming.localNames ++ [(item.1, name)] } where
  reserved := h.reserved
  occupied := h.occupied
  apart := h.apart
  fresh := h.fresh
  named := by
    rw [List.map_append, List.map_append, h.named]
    rfl
  spelled id name' hmem := by
    obtain hmem | hmem := List.mem_append.mp hmem
    · obtain ⟨source, hsource, hname⟩ := h.spelled id name' hmem
      exact ⟨source, List.mem_append_left _ hsource, hname⟩
    · obtain ⟨rfl, rfl⟩ := Prod.mk.inj (List.mem_singleton.mp hmem)
      exact ⟨item.2, List.mem_append_right _ List.mem_cons_self, hlookup⟩

theorem Named.anew (h : scope.Named done naming)
    (hlookup : naming.sourceNames.lookup item.2 = none) (hfree : name ∉ naming.occupied) :
    scope.Named (done ++ [item]) {
      occupied := name :: naming.occupied
      sourceNames := (item.2, name) :: naming.sourceNames
      localNames := naming.localNames ++ [(item.1, name)] } where
  reserved name' hname := List.mem_cons_of_mem _ (h.reserved name' hname)
  occupied source found hfound := by
    obtain ⟨-, rfl⟩ | ⟨-, hold⟩ := lookup_cons_cases hfound
    · exact List.mem_cons_self
    · exact List.mem_cons_of_mem _ (h.occupied source found hold)
  apart source source' found hfound hfound' := by
    obtain ⟨rfl, rfl⟩ | ⟨-, hold⟩ := lookup_cons_cases hfound
    · obtain ⟨rfl, -⟩ | ⟨-, hold'⟩ := lookup_cons_cases hfound'
      · rfl
      · exact absurd (h.occupied _ _ hold') hfree
    · obtain ⟨rfl, rfl⟩ | ⟨-, hold'⟩ := lookup_cons_cases hfound'
      · exact absurd (h.occupied _ _ hold) hfree
      · exact h.apart _ _ _ hold hold'
  fresh source found hfound hreserved := by
    obtain ⟨-, rfl⟩ | ⟨-, hold⟩ := lookup_cons_cases hfound
    · exact absurd (h.reserved _ hreserved) hfree
    · exact h.fresh _ _ hold hreserved
  named := by
    rw [List.map_append, List.map_append, h.named]
    rfl
  spelled id name' hmem := by
    obtain hmem | hmem := List.mem_append.mp hmem
    · obtain ⟨source, hsource, hname⟩ := h.spelled id name' hmem
      refine ⟨source, List.mem_append_left _ hsource, ?_⟩
      have hne : source ≠ item.2 := by
        rintro rfl
        rw [hlookup] at hname
        cases hname
      rw [List.lookup_cons, beq_eq_false_iff_ne.mpr hne]
      exact hname
    · obtain ⟨rfl, rfl⟩ := Prod.mk.inj (List.mem_singleton.mp hmem)
      exact ⟨item.2, List.mem_append_right _ List.mem_cons_self, List.lookup_cons_self⟩

theorem Named.step (hbody : scope.IsFunctionBody) (h : scope.Named done naming)
    (item : LocalId × String) :
    ∃ next, scope.nameLocal naming item = some next ∧ scope.Named (done ++ [item]) next := by
  unfold nameLocal
  cases hlookup : naming.sourceNames.lookup item.2 with
  | some name => exact ⟨_, rfl, h.again hlookup⟩
  | none =>
    have hnew : ∃ name, scope.newName naming item = some name ∧ name ∉ naming.occupied := by
      have hfresh : scope.newName naming item = freshName naming.occupied scope.authored
          (scope.baseName item.2) (naming.occupied.length + scope.authored.length + 1) item.1.index
          (scope.baseName item.2) := by
        unfold newName
        obtain hroot | ⟨index, hroot⟩ := hbody
        · rw [hroot]
        · rw [hroot]
      rw [hfresh]
      obtain ⟨name, hname⟩ := freshName_isSome
      exact ⟨name, hname, freshName_ok hname⟩
    obtain ⟨name, hname, hfree⟩ := hnew
    dsimp only
    rw [hname]
    exact ⟨_, rfl, h.anew hlookup hfree⟩

theorem Named.foldlM (hbody : scope.IsFunctionBody) (h : scope.Named done naming)
    (items : List (LocalId × String)) :
    ∃ final, items.foldlM scope.nameLocal naming = some final ∧ scope.Named (done ++ items) final := by
  induction items generalizing done naming with
  | nil =>
    refine ⟨naming, rfl, ?_⟩
    rwa [List.append_nil]
  | cons item items ih =>
    obtain ⟨next, hnext, hnamed⟩ := h.step hbody item
    obtain ⟨final, hfinal, hall⟩ := ih hnamed
    refine ⟨final, ?_, ?_⟩
    · rw [List.foldlM_cons, hnext]
      exact hfinal
    · rwa [List.append_assoc] at hall

theorem Keeps.shadows (h : scope.Keeps source) (hwritten : Written source) : scope.Shadows source := by
  obtain hconst | hfield := h
  · obtain ⟨const, hfiltered, rfl⟩ := List.mem_map.mp hconst
    obtain ⟨hmem, hkind⟩ := List.mem_filter.mp hfiltered
    obtain hkept | ⟨suffix, hgenerated⟩ := scope.kept const hmem
    · exact .inl ⟨const, hmem, of_decide_eq_true hkind, hkept.symm⟩
    · exact absurd hgenerated (hwritten _ _)
  · exact .inr hfield

/-- **The locals of a function body are named; two have one name if and only if they have one spelling,
and a name is that of a declaration, of an actor function, of a state field, of a generated field or of
Silverscript only when the spelling of the local is that of a constant or of an owned state field.** -/
theorem emittedNames_hygienic (scope : LocalScope) (hbody : scope.IsFunctionBody) :
    ∃ names, scope.emittedNames = some names ∧
      (∀ id source, (id, source) ∈ scope.bodyLocals → ∃ name, (id, name) ∈ names) ∧
      (∀ id source id' source' name name', (id, source) ∈ scope.bodyLocals →
        (id', source') ∈ scope.bodyLocals → (id, name) ∈ names → (id', name') ∈ names →
        (name = name' ↔ source = source')) ∧
      ∀ id source name, (id, source) ∈ scope.bodyLocals → (id, name) ∈ names →
        name ∈ scope.reserved → scope.Shadows source := by
  obtain ⟨final, hfinal, hnamed⟩ := (Named.initial scope).foldlM hbody scope.bodyLocals
  rw [List.nil_append] at hnamed
  have hdistinct : (scope.bodyLocals.map Prod.fst).Nodup :=
    (List.filter_sublist.map Prod.fst).nodup scope.distinct
  -- the spelling under which a local is named is its own
  have hspelled : ∀ id source name, (id, source) ∈ scope.bodyLocals → (id, name) ∈ final.localNames →
      final.sourceNames.lookup source = some name := by
    intro id source name hlocal hname
    obtain ⟨source', hlocal', hlookup⟩ := hnamed.spelled id name hname
    have heq := List.inj_on_of_nodup_map hdistinct hlocal hlocal' rfl
    rwa [(Prod.mk.inj heq).2]
  refine ⟨final.localNames, ?_, ?_, ?_, ?_⟩
  · unfold emittedNames
    rw [hfinal]
    rfl
  · intro id source hlocal
    have hmem : id ∈ final.localNames.map Prod.fst := by
      rw [hnamed.named]
      exact List.mem_map_of_mem (f := Prod.fst) hlocal
    obtain ⟨⟨id', name⟩, hname, rfl⟩ := List.mem_map.mp hmem
    exact ⟨name, hname⟩
  · intro id source id' source' name name' hlocal hlocal' hname hname'
    have hlookup := hspelled id source name hlocal hname
    have hlookup' := hspelled id' source' name' hlocal' hname'
    constructor
    · rintro rfl
      exact hnamed.apart source source' name hlookup hlookup'
    · rintro rfl
      exact Option.some_inj.mp (hlookup.symm.trans hlookup')
  · intro id source name hlocal hname hreserved
    have hkeeps := hnamed.fresh source name (hspelled id source name hlocal hname) hreserved
    exact hkeeps.shadows (scope.written _ (List.mem_filter.mp hlocal).1)

/-! ### a function of an actor -/

theorem written_of_head {name : String} (h : name.toList.head? ≠ some 'g') : Written name := by
  rintro suffix sourceName rfl
  refine h ?_
  unfold generatedName
  rw [String.append_assoc, String.append_assoc, String.toList_append]
  rfl

def counterLocals : List (LocalId × String) :=
  ["count", "LIMIT", "Counter", "step", "step", "Counter__2"].zipIdx.map fun item =>
    (⟨⟨0, .actor, 0⟩, .actorFunction 0, item.2⟩, item.1)

/-- the scope of a function of `actor Counter owns CounterState`, beside a constant `LIMIT` -/
def counterScope : LocalScope where
  displayNames := [(⟨0, .const, 0⟩, "LIMIT"), (⟨0, .state, 0⟩, "CounterState"),
    (⟨0, .actor, 0⟩, "Counter")]
  sourceName id :=
    match id.kind with
    | .const => "LIMIT"
    | .state => "CounterState"
    | _ => "Counter"
  kept item hitem := by
    obtain rfl | hitem := List.mem_cons.mp hitem
    · exact .inl rfl
    · obtain rfl | hitem := List.mem_cons.mp hitem
      · exact .inl rfl
      · obtain rfl := List.mem_singleton.mp hitem
        exact .inl rfl
  generatedFields := []
  actor := some ⟨["bump"], some ["count"]⟩
  owner := ⟨0, .actor, 0⟩
  root := .actorFunction 0
  localNames := counterLocals
  distinct := by decide
  written item hitem := by
    have hall : (counterLocals.all fun item => decide (item.2.toList.head? ≠ some 'g')) = true := by
      decide
    exact written_of_head (of_decide_eq_true (List.all_eq_true.mp hall item hitem))

theorem emittedNames_hygienic_counter : ∃ names, counterScope.emittedNames = some names ∧
    ∀ id source name, (id, source) ∈ counterScope.bodyLocals → (id, name) ∈ names →
      name ∈ counterScope.reserved → counterScope.Shadows source := by
  obtain ⟨names, hnames, -, -, hfresh⟩ := emittedNames_hygienic counterScope (.inr ⟨0, rfl⟩)
  exact ⟨names, hnames, hfresh⟩

example : counterScope.emittedNames.map (fun names => names.map Prod.snd) =
    some ["count", "LIMIT", "Counter__3", "step", "step", "Counter__2"] := by decide

/-! ## the scope of a body in a program -/

section
variable {resolved : ResolvedModules} {selected : Option DeclId} {actors : List DeclId}
  {names : BTreeMap DeclId String}

/-- a declaration keeps its name, or is given a generated one -/
def KeptNames (resolved : ResolvedModules) (names : BTreeMap DeclId String) : Prop :=
  ∀ id name, names.get id = some name → name = resolved.sourceName id ∨
    ∃ suffix, name = generatedName suffix (resolved.sourceName id)

theorem KeptNames.insert {id : DeclId} (h : KeptNames resolved names)
    (hname : name = resolved.sourceName id ∨
      ∃ suffix, name = generatedName suffix (resolved.sourceName id)) :
    KeptNames resolved (names.insert id name) := by
  intro id' name' hget
  rw [BTreeMap.get_insert] at hget
  split_ifs at hget with heq
  · rw [heq, ← Option.some_inj.mp hget]
    exact hname
  · exact h id' name' hget

theorem keptNames_of_selected
    (h : resolved.selectedDeclarationNames selected actors = .ok names) :
    KeptNames resolved names := by
  obtain ⟨declarations, -, hnames⟩ := bind_eq_ok.mp h
  rw [← pure_eq_ok.mp hnames]
  have hactors : ∀ (ids : List DeclId) (assigned : AssignedNames),
      KeptNames resolved assigned.names →
        KeptNames resolved (ids.foldl resolved.nameActor assigned).names := by
    intro ids
    induction ids with
    | nil => exact fun _ hkept => hkept
    | cons id ids ih => exact fun assigned hkept => ih _ (hkept.insert (.inl rfl))
  have hdeclarations : ∀ (ids : List DeclId) (assigned : AssignedNames),
      KeptNames resolved assigned.names →
        KeptNames resolved (ids.foldl (resolved.nameDeclaration declarations) assigned).names := by
    intro ids
    induction ids with
    | nil => exact fun _ hkept => hkept
    | cons id ids ih =>
      intro assigned hkept
      refine ih _ ?_
      unfold ResolvedModules.nameDeclaration
      split_ifs
      · exact hkept
      · refine hkept.insert ?_
        unfold ResolvedModules.outputName
        dsimp only
        split_ifs
        · exact .inr ⟨_, rfl⟩
        · exact .inl rfl
  refine hdeclarations _ _ (hactors _ _ fun id name hname => ?_)
  cases hname

/-- the scope of a body whose program has these output names -/
def ofProgram (h : resolved.selectedDeclarationNames selected actors = .ok names)
    (generatedFields : List String) (actor : Option OwningActor) (owner : DeclId) (root : RootSlot)
    (localNames : List (LocalId × String)) (distinct : (localNames.map Prod.fst).Nodup)
    (written : ∀ item ∈ localNames, Written item.2) : LocalScope where
  displayNames := names.entries
  sourceName := resolved.sourceName
  kept item hitem := keptNames_of_selected h item.1 item.2 (BTreeMap.mem_entries.mp hitem)
  generatedFields
  actor
  owner
  root
  localNames
  distinct
  written

end

end LocalScope

end Argent.Codegen.SilNames
