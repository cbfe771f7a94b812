import Argent.Resolve.Namespaces

/-!
# Namespaces: what a module exports

The exports of a module are the declarations and aliases of the modules it reaches through
unaliased imports.

* `Names`              what a module names by itself: its declarations and the aliases it imports;
* `Finds`              what is named in some module that is reached through unaliased imports;
* `mem_closeCandidates`      **the loop collects exactly what is found**;
* `Renumbers`          two graphs that differ in the order of modules and imports;
* `NamespaceTable.new_exact`      **the exports are what is found, and they fail on an alias that
                       is imported twice or on a name with two targets**.
-/

set_option linter.unusedSectionVars false

namespace Argent.Resolve
open Argent.Fallible

/-! ## what is found -/

namespace ModuleGraph
variable (graph : ModuleGraph)

/-- a module names its declarations and the modules it imports under an alias -/
def Names (id : ModuleId) (name : String) (target : ResolvedName) : Prop :=
  (∃ m kind index, graph.modules[id]? = some m ∧ (m.names kind)[index]? = some name ∧
    target = .declaration ⟨id, kind, index⟩) ∨
  ∃ i ∈ graph.importsOf id, i.aliasName = some name ∧ target = .namespaceOf i.target

/-- the first module has an unaliased import of the second -/
def ImportsPlain (id id' : ModuleId) : Prop :=
  ∃ i ∈ graph.importsOf id, i.aliasName = none ∧ i.target = id'

/-- through any number of unaliased imports -/
def Reaches : ModuleId → ModuleId → Prop := Relation.ReflTransGen graph.ImportsPlain

def Finds (id : ModuleId) (name : String) (target : ResolvedName) : Prop :=
  ∃ id', graph.Reaches id id' ∧ graph.Names id' name target

/-- some alias is imported twice -/
def RepeatsAlias (id : ModuleId) : Prop :=
  ¬ ((graph.importsOf id).filterMap ResolvedImport.aliasName).Nodup

/-- two targets are found under one name -/
def Ambiguous (id : ModuleId) (name : String) : Prop :=
  ∃ target target', target ≠ target' ∧ graph.Finds id name target ∧ graph.Finds id name target'

end ModuleGraph

/-! ## the names of one module -/

theorem mem_insertDeclarations {id : ModuleId} {m : Module} {candidates : Candidates}
    {kind : SymbolKind} {name : String} {target : ResolvedName} :
    target ∈ (insertDeclarations id m candidates kind).getD name ↔
      target ∈ candidates.getD name ∨
        ∃ index, (m.names kind)[index]? = some name ∧ target = .declaration ⟨id, kind, index⟩ := by
  unfold insertDeclarations
  rw [MultiMap.mem_foldl_add]
  apply or_congr_right
  constructor
  · rintro ⟨⟨name', index⟩, hmem, rfl, rfl⟩
    exact ⟨index, List.mem_zipIdx_iff_getElem?.mp hmem, rfl⟩
  · rintro ⟨index, hget, rfl⟩
    exact ⟨(name, index), List.mem_zipIdx_iff_getElem?.mpr hget, rfl, rfl⟩

theorem mem_declarationCandidates {id : ModuleId} {m : Module} {name : String}
    {target : ResolvedName} :
    target ∈ (declarationCandidates id m).getD name ↔
      ∃ kind index, (m.names kind)[index]? = some name ∧
        target = .declaration ⟨id, kind, index⟩ := by
  have hfold : ∀ (kinds : List SymbolKind) (candidates : Candidates),
      target ∈ (kinds.foldl (insertDeclarations id m) candidates).getD name ↔
        target ∈ candidates.getD name ∨ ∃ kind ∈ kinds, ∃ index,
          (m.names kind)[index]? = some name ∧ target = .declaration ⟨id, kind, index⟩ := by
    intro kinds
    induction kinds with
    | nil => simp
    | cons kind kinds ih =>
      intro candidates
      rw [List.foldl_cons, ih, mem_insertDeclarations, List.exists_mem_cons_iff, or_assoc]
  unfold declarationCandidates
  rw [hfold]
  constructor
  · rintro (hnone | ⟨kind, _, index, h⟩)
    · exact absurd hnone (BTreeSet.not_mem_empty _)
    · exact ⟨kind, index, h⟩
  · rintro ⟨kind, index, h⟩
    exact .inr ⟨kind, SymbolKind.mem_all kind, index, h⟩

theorem foldlM_insertAlias_ok {m : Module} {imports : List ResolvedImport}
    {found out : BTreeSet String × Candidates}
    (h : imports.foldlM (insertAlias m) found = .ok out) :
    (imports.filterMap ResolvedImport.aliasName).Nodup ∧
      (∀ name ∈ imports.filterMap ResolvedImport.aliasName, name ∉ found.1) ∧
      ∀ name target, target ∈ out.2.getD name ↔ target ∈ found.2.getD name ∨
        ∃ i ∈ imports, i.aliasName = some name ∧ target = .namespaceOf i.target := by
  induction imports generalizing found with
  | nil =>
    obtain rfl := pure_eq_ok.mp h
    exact ⟨List.nodup_nil, fun _ h => absurd h List.not_mem_nil, fun _ _ => by simp⟩
  | cons i imports ih =>
    rw [List.foldlM_cons, bind_eq_ok] at h
    obtain ⟨found', hstep, hrest⟩ := h
    obtain ⟨hnodup, hfresh, hmem⟩ := ih hrest
    unfold insertAlias at hstep
    cases halias : i.aliasName with
    | none =>
      rw [halias] at hstep
      obtain rfl := Except.ok.inj hstep
      rw [List.filterMap_cons_none halias]
      refine ⟨hnodup, hfresh, fun name target => ?_⟩
      rw [hmem, List.exists_mem_cons_iff, halias]
      simp
    | some aliasName =>
      rw [halias] at hstep
      simp only at hstep
      split_ifs at hstep with hseen
      obtain rfl := Except.ok.inj hstep
      rw [List.filterMap_cons_some halias]
      refine ⟨List.nodup_cons.mpr ⟨fun hin => ?_, hnodup⟩, fun name hname => ?_,
        fun name target => ?_⟩
      · exact hfresh _ hin (BTreeSet.mem_insert.mpr (.inl rfl))
      · obtain rfl | hname := List.mem_cons.mp hname
        · exact hseen
        · exact fun hin => hfresh name hname (BTreeSet.mem_insert.mpr (.inr hin))
      · rw [hmem, MultiMap.mem_add, List.exists_mem_cons_iff, halias, Option.some.injEq]
        constructor
        · rintro ((⟨rfl, ht⟩ | ht) | ht)
          · exact .inr (.inl ⟨rfl, ht⟩)
          · exact .inl ht
          · exact .inr (.inr ht)
        · rintro (ht | ⟨rfl, ht⟩ | ht)
          · exact .inl (.inr ht)
          · exact .inl (.inl ⟨rfl, ht⟩)
          · exact .inr ht

theorem exists_foldlM_insertAlias {m : Module} {imports : List ResolvedImport}
    {found : BTreeSet String × Candidates}
    (hnodup : (imports.filterMap ResolvedImport.aliasName).Nodup)
    (hfresh : ∀ name ∈ imports.filterMap ResolvedImport.aliasName, name ∉ found.1) :
    ∃ out, imports.foldlM (insertAlias m) found = .ok out := by
  induction imports generalizing found with
  | nil => exact ⟨found, rfl⟩
  | cons i imports ih =>
    cases halias : i.aliasName with
    | none =>
      rw [List.filterMap_cons_none halias] at hnodup hfresh
      obtain ⟨out, hout⟩ := ih hnodup hfresh
      refine ⟨out, ?_⟩
      rw [List.foldlM_cons, insertAlias, halias]
      exact hout
    | some aliasName =>
      rw [List.filterMap_cons_some halias] at hnodup hfresh
      obtain ⟨hnotin, hnodup⟩ := List.nodup_cons.mp hnodup
      have hseen := hfresh aliasName List.mem_cons_self
      have hrest : ∃ out, imports.foldlM (insertAlias m) (insert aliasName found.1,
          found.2.add aliasName (.namespaceOf i.target)) = .ok out :=
        ih hnodup fun name hname hin => by
          obtain rfl | hin := BTreeSet.mem_insert.mp hin
          · exact hnotin hname
          · exact hfresh name (List.mem_cons_of_mem _ hname) hin
      obtain ⟨out, hout⟩ := hrest
      refine ⟨out, ?_⟩
      rw [List.foldlM_cons, insertAlias, halias]
      simp only [if_neg hseen]
      exact hout

section
variable {graph : ModuleGraph}

theorem importsOf_of_le {id : ModuleId} (h : graph.modules.length ≤ id) :
    graph.importsOf id = [] := by
  unfold ModuleGraph.importsOf
  rw [List.getD_eq_getElem?_getD, List.getElem?_eq_none (graph.length_eq ▸ h)]
  rfl

theorem getElem?_zip_imports {id : ModuleId} {item : Module × List ResolvedImport} :
    (graph.modules.zip graph.imports)[id]? = some item ↔
      graph.modules[id]? = some item.1 ∧ graph.importsOf id = item.2 := by
  rw [List.getElem?_zip_eq_some]
  apply and_congr_right
  intro hmodule
  obtain ⟨hid, _⟩ := List.getElem?_eq_some_iff.mp hmodule
  have himports : graph.imports[id]? = some (graph.importsOf id) := by
    unfold ModuleGraph.importsOf
    rw [List.getD_eq_getElem?_getD, List.getElem?_eq_getElem (graph.length_eq ▸ hid)]
    rfl
  rw [himports, Option.some.injEq]

theorem mem_moduleCandidates {id : ModuleId} {m : Module} {candidates : Candidates}
    (hmodule : graph.modules[id]? = some m)
    (h : moduleCandidates id m (graph.importsOf id) = .ok candidates) {name : String}
    {target : ResolvedName} : target ∈ candidates.getD name ↔ graph.Names id name target := by
  obtain ⟨found, hfound, hout⟩ := bind_eq_ok.mp h
  obtain rfl := pure_eq_ok.mp hout
  obtain ⟨_, _, hmem⟩ := foldlM_insertAlias_ok hfound
  rw [hmem, mem_declarationCandidates]
  apply or_congr_left
  constructor
  · rintro ⟨kind, index, hname, htarget⟩
    exact ⟨m, kind, index, hmodule, hname, htarget⟩
  · rintro ⟨m', kind, index, hmodule', hname, htarget⟩
    obtain rfl : m = m' := Option.some.inj (hmodule.symm.trans hmodule')
    exact ⟨kind, index, hname, htarget⟩

theorem initialCandidates_length {initial : List Candidates}
    (h : initialCandidates graph = .ok initial) : initial.length = graph.modules.length := by
  have hlength := (mapM_ok h).length_eq
  rw [List.length_zipIdx, List.length_zip, graph.length_eq, Nat.min_self] at hlength
  exact hlength.symm

theorem initialCandidates_ok {initial : List Candidates}
    (h : initialCandidates graph = .ok initial) {id : ModuleId} {m : Module}
    (hmodule : graph.modules[id]? = some m) :
    ∃ candidates, initial[id]? = some candidates ∧
      moduleCandidates id m (graph.importsOf id) = .ok candidates := by
  have hitem : (graph.modules.zip graph.imports).zipIdx[id]? =
      some ((m, graph.importsOf id), id) := by
    have hzip : (graph.modules.zip graph.imports)[id]? = some (m, graph.importsOf id) :=
      getElem?_zip_imports.mpr ⟨hmodule, rfl⟩
    rw [List.getElem?_zipIdx, hzip, Option.map_some, Nat.zero_add]
  exact getElem?_of_mapM_ok h hitem

theorem mem_initialCandidates {initial : List Candidates}
    (h : initialCandidates graph = .ok initial) {id : ModuleId} {name : String}
    {target : ResolvedName} :
    target ∈ (initial.getD id ∅).getD name ↔ graph.Names id name target := by
  rw [List.getD_eq_getElem?_getD]
  obtain hnone | ⟨m, hmodule⟩ := Option.eq_none_or_eq_some graph.modules[id]?
  · have hid : graph.modules.length ≤ id := List.getElem?_eq_none_iff.mp hnone
    rw [List.getElem?_eq_none (initialCandidates_length h ▸ hid)]
    refine ⟨fun hin => absurd hin (BTreeSet.not_mem_empty _), ?_⟩
    rintro (⟨m, _, _, hmodule, _⟩ | ⟨i, hi, _⟩)
    · rw [hnone] at hmodule
      cases hmodule
    · rw [importsOf_of_le hid] at hi
      exact absurd hi List.not_mem_nil
  · obtain ⟨candidates, hget, hok⟩ := initialCandidates_ok h hmodule
    rw [hget]
    exact mem_moduleCandidates hmodule hok

theorem nodup_of_initialCandidates {initial : List Candidates}
    (h : initialCandidates graph = .ok initial) (id : ModuleId) : ¬ graph.RepeatsAlias id := by
  intro hrepeats
  obtain hnone | ⟨m, hmodule⟩ := Option.eq_none_or_eq_some graph.modules[id]?
  · apply hrepeats
    rw [importsOf_of_le (List.getElem?_eq_none_iff.mp hnone)]
    exact List.nodup_nil
  · obtain ⟨candidates, _, hok⟩ := initialCandidates_ok h hmodule
    obtain ⟨found, hfound, _⟩ := bind_eq_ok.mp hok
    exact hrepeats (foldlM_insertAlias_ok hfound).1

theorem exists_initialCandidates (h : ∀ id, ¬ graph.RepeatsAlias id) :
    ∃ initial, initialCandidates graph = .ok initial := by
  apply exists_mapM_ok
  rintro ⟨⟨m, imports⟩, id⟩ hitem
  have hget : (graph.modules.zip graph.imports)[id]? = some (m, imports) :=
    List.mem_zipIdx_iff_getElem?.mp hitem
  obtain ⟨_, rfl⟩ := getElem?_zip_imports.mp hget
  have hfold : ∃ out, (graph.importsOf id).foldlM (insertAlias m)
      (∅, declarationCandidates id m) = .ok out :=
    exists_foldlM_insertAlias (not_not.mp (h id)) fun name _ => BTreeSet.not_mem_empty name
  obtain ⟨out, hout⟩ := hfold
  exact ⟨out.2, bind_eq_ok.mpr ⟨out, hout, rfl⟩⟩

/-! ## the loop -/

theorem mem_absorbImports {candidates : List Candidates} {own : Candidates}
    {imports : List ResolvedImport} {name : String} {target : ResolvedName} :
    target ∈ (absorbImports candidates own imports).getD name ↔ target ∈ own.getD name ∨
      ∃ i ∈ imports, i.aliasName = none ∧ target ∈ (candidates.getD i.target ∅).getD name := by
  have hfold : ∀ (l : List ResolvedImport) (own : Candidates),
      target ∈ (l.foldl (fun own i => own.absorb (candidates.getD i.target ∅)) own).getD name ↔
        target ∈ own.getD name ∨ ∃ i ∈ l, target ∈ (candidates.getD i.target ∅).getD name := by
    intro l
    induction l with
    | nil => simp
    | cons i l ih =>
      intro own
      rw [List.foldl_cons, ih, MultiMap.mem_absorb, List.exists_mem_cons_iff, or_assoc]
  unfold absorbImports
  rw [hfold]
  apply or_congr_right
  unfold unaliased
  constructor
  · rintro ⟨i, hi, htarget⟩
    obtain ⟨hi, halias⟩ := List.mem_filter.mp hi
    exact ⟨i, hi, Option.isNone_iff_eq_none.mp halias, htarget⟩
  · rintro ⟨i, hi, halias, htarget⟩
    exact ⟨i, List.mem_filter.mpr ⟨hi, Option.isNone_iff_eq_none.mpr halias⟩, htarget⟩

theorem length_nextCandidates (imports : List (List ResolvedImport))
    (candidates : List Candidates) :
    (nextCandidates imports candidates).length = candidates.length := by
  unfold nextCandidates
  rw [List.length_map, List.length_zipIdx]

/-- one round follows every unaliased import once -/
theorem mem_nextCandidates {candidates : List Candidates}
    (hlength : candidates.length = graph.modules.length) {id : ModuleId} {name : String}
    {target : ResolvedName} :
    target ∈ ((nextCandidates graph.imports candidates).getD id ∅).getD name ↔
      target ∈ (candidates.getD id ∅).getD name ∨
        ∃ id', graph.ImportsPlain id id' ∧ target ∈ (candidates.getD id' ∅).getD name := by
  obtain hid | hid := Nat.lt_or_ge id candidates.length
  · have hget : (nextCandidates graph.imports candidates).getD id ∅ =
        absorbImports candidates (candidates.getD id ∅) (graph.importsOf id) := by
      simp only [nextCandidates, List.getD_eq_getElem?_getD, List.getElem?_map,
        List.getElem?_zipIdx, List.getElem?_eq_getElem hid, Option.map_some, Option.getD_some,
        Nat.zero_add, ModuleGraph.importsOf]
    rw [hget, mem_absorbImports]
    apply or_congr_right
    constructor
    · rintro ⟨i, hi, halias, htarget⟩
      exact ⟨i.target, ⟨i, hi, halias, rfl⟩, htarget⟩
    · rintro ⟨_, ⟨i, hi, halias, rfl⟩, htarget⟩
      exact ⟨i, hi, halias, htarget⟩
  · have hnext : (nextCandidates graph.imports candidates).getD id ∅ = ∅ := by
      rw [List.getD_eq_getElem?_getD, List.getElem?_eq_none (by rw [length_nextCandidates]; exact hid)]
      rfl
    have hnow : candidates.getD id ∅ = ∅ := by
      rw [List.getD_eq_getElem?_getD, List.getElem?_eq_none hid]
      rfl
    rw [hnext, hnow]
    constructor
    · exact .inl
    · rintro (hin | ⟨_, ⟨i, hi, _⟩, _⟩)
      · exact hin
      · rw [importsOf_of_le (hlength ▸ hid)] at hi
        exact absurd hi List.not_mem_nil

theorem length_closeCandidates (imports : List (List ResolvedImport))
    (candidates : List Candidates) :
    (closeCandidates imports candidates).length = candidates.length :=
  Saturate.saturate_induct _ (P := fun c => c.length = candidates.length) rfl
    fun c hc => (length_nextCandidates imports c).trans hc

/-- **the loop collects exactly what is found** -/
theorem mem_closeCandidates {initial : List Candidates}
    (h : initialCandidates graph = .ok initial) {id : ModuleId} {name : String}
    {target : ResolvedName} :
    target ∈ ((closeCandidates graph.imports initial).getD id ∅).getD name ↔
      graph.Finds id name target := by
  have hexact := Saturate.saturate_exact (MultiMap.growing (spreads_nextCandidates graph.imports))
    (fun c id => {found : String × ResolvedName | found.2 ∈ (c.getD id ∅).getD found.1})
    graph.ImportsPlain (fun c => c.length = graph.modules.length)
    (fun c hc => (length_nextCandidates graph.imports c).trans hc)
    (fun c hc id found => mem_nextCandidates hc) (initialCandidates_length h) (i := id)
    (x := (name, target))
  refine hexact.trans (exists_congr fun id' => and_congr_right fun _ => ?_)
  exact mem_initialCandidates h

end

/-! ## exports -/

/-- the exports made of the entries `done` of the candidates -/
def ExportsOf (candidates : Candidates) (done : List (String × BTreeSet ResolvedName))
    (exports : Exports) : Prop :=
  (∀ entry ∈ done, candidates.get entry.1 = some entry.2 ∧
    ∀ target ∈ entry.2, ∀ target' ∈ entry.2, target = target') ∧
  ∀ name target, exports.get name = some target ↔
    ∃ targets, (name, targets) ∈ done ∧ target ∈ targets

theorem ExportsOf.step {m : Module} {candidates : Candidates}
    {done : List (String × BTreeSet ResolvedName)} {exports exports' : Exports}
    {entry : String × BTreeSet ResolvedName} (hdone : ExportsOf candidates done exports)
    (hentry : candidates.get entry.1 = some entry.2)
    (h : insertExport m exports entry = .ok exports') :
    ExportsOf candidates (done ++ [entry]) exports' := by
  obtain ⟨hunique, hget⟩ := hdone
  obtain ⟨key, targets⟩ := entry
  have hadd : ∀ name target, (∃ targets', (name, targets') ∈ done ++ [(key, targets)] ∧
      target ∈ targets') ↔ exports.get name = some target ∨ (name = key ∧ target ∈ targets) := by
    intro name target
    rw [hget]
    constructor
    · rintro ⟨targets', hmem, htarget⟩
      obtain hmem | hmem := List.mem_append.mp hmem
      · exact .inl ⟨targets', hmem, htarget⟩
      · obtain ⟨rfl, rfl⟩ := Prod.mk.inj (List.mem_singleton.mp hmem)
        exact .inr ⟨rfl, htarget⟩
    · rintro (⟨targets', hmem, htarget⟩ | ⟨rfl, htarget⟩)
      · exact ⟨targets', List.mem_append_left _ hmem, htarget⟩
      · exact ⟨targets, List.mem_append_right _ List.mem_cons_self, htarget⟩
  have hall : (∀ target ∈ targets, ∀ target' ∈ targets, target = target') →
      ∀ entry ∈ done ++ [(key, targets)], candidates.get entry.1 = some entry.2 ∧
        ∀ target ∈ entry.2, ∀ target' ∈ entry.2, target = target' := by
    intro hsame entry hmem
    obtain hmem | hmem := List.mem_append.mp hmem
    · exact hunique entry hmem
    · rw [List.mem_singleton.mp hmem]
      exact ⟨hentry, hsame⟩
  unfold insertExport at h
  simp only at h
  cases hlist : targets.toList with
  | nil =>
    rw [hlist] at h
    obtain rfl := Except.ok.inj h
    have hempty : ∀ target, target ∉ targets := fun target hin => by
      rw [BTreeSet.mem_def, hlist] at hin
      exact absurd hin List.not_mem_nil
    refine ⟨hall fun target hin => absurd hin (hempty target), fun name target => ?_⟩
    rw [hadd]
    exact ⟨.inl, fun hor => hor.resolve_right fun hin => hempty target hin.2⟩
  | cons first rest =>
    cases rest with
    | nil =>
      rw [hlist] at h
      obtain rfl := Except.ok.inj h
      have hone : ∀ target, target ∈ targets ↔ target = first := fun target => by
        rw [BTreeSet.mem_def, hlist, List.mem_singleton]
      refine ⟨hall fun target hin target' hin' => ?_, fun name target => ?_⟩
      · rw [(hone target).mp hin, (hone target').mp hin']
      · rw [hadd, BTreeMap.get_insert, hone]
        by_cases hname : name = key
        · subst hname
          rw [if_pos rfl, Option.some.injEq]
          constructor
          · exact fun heq => .inr ⟨rfl, heq.symm⟩
          · rintro (hold | ⟨_, rfl⟩)
            · obtain ⟨targets', hmem, htarget⟩ := (hget _ _).mp hold
              have hsame : targets' = targets :=
                Option.some.inj ((hunique _ hmem).1.symm.trans hentry)
              exact ((hone target).mp (hsame ▸ htarget)).symm
            · rfl
        · rw [if_neg hname]
          exact ⟨.inl, fun hor => hor.resolve_right fun hin => hname hin.1⟩
    | cons second rest =>
      rw [hlist] at h
      cases h

theorem moduleExports_ok {m : Module} {candidates : Candidates} {exports : Exports}
    (h : moduleExports m candidates = .ok exports) :
    (∀ name target, exports.get name = some target ↔ target ∈ candidates.getD name) ∧
      ∀ name, ∀ target ∈ candidates.getD name, ∀ target' ∈ candidates.getD name,
        target = target' := by
  have hdone : ExportsOf candidates candidates.entries exports := by
    apply foldlM_ok (ExportsOf candidates) h
    · refine ⟨fun _ hmem => absurd hmem List.not_mem_nil, fun name target => ?_⟩
      simp
    · intro done exports entry exports' hmem hP hstep
      exact hP.step (BTreeMap.mem_entries.mp hmem) hstep
  obtain ⟨hunique, hget⟩ := hdone
  constructor
  · intro name target
    rw [hget, MultiMap.mem_getD]
    exact exists_congr fun targets => and_congr_left fun _ => BTreeMap.mem_entries
  · intro name target htarget target' htarget'
    obtain ⟨targets, hmem, hin⟩ := MultiMap.mem_getD.mp htarget
    obtain ⟨targets', hmem', hin'⟩ := MultiMap.mem_getD.mp htarget'
    obtain rfl : targets = targets' := Option.some.inj (hmem.symm.trans hmem')
    exact (hunique _ (BTreeMap.mem_entries.mpr hmem)).2 target hin target' hin'

theorem exists_moduleExports {m : Module} {candidates : Candidates}
    (h : ∀ name, ∀ target ∈ candidates.getD name, ∀ target' ∈ candidates.getD name,
      target = target') : ∃ exports, moduleExports m candidates = .ok exports := by
  cases hfold : moduleExports m candidates with
  | ok exports => exact ⟨exports, rfl⟩
  | error e =>
    obtain ⟨exports, ⟨key, targets⟩, hmem, hstep⟩ := foldlM_error hfold
    have hentry := BTreeMap.mem_entries.mp hmem
    unfold insertExport at hstep
    simp only at hstep
    split at hstep
    · cases hstep
    · cases hstep
    · rename_i first second rest hlist
      have hmem : ∀ target ∈ targets, target ∈ candidates.getD key := fun target hin =>
        MultiMap.mem_getD.mpr ⟨targets, hentry, hin⟩
      have hfirst : first ∈ targets := by
        rw [BTreeSet.mem_def, hlist]
        exact List.mem_cons_self
      have hsecond : second ∈ targets := by
        rw [BTreeSet.mem_def, hlist]
        exact List.mem_cons_of_mem _ List.mem_cons_self
      have hsorted := targets.sorted
      rw [hlist] at hsorted
      have hlt := (List.pairwise_cons.mp hsorted).1 second List.mem_cons_self
      exact absurd (h key first (hmem first hfirst) second (hmem second hsecond)) (ne_of_lt hlt)

section
variable {graph : ModuleGraph}

theorem getElem?_zip_candidates {candidates : List Candidates}
    (hlength : candidates.length = graph.modules.length) {id : ModuleId} {m : Module}
    (hmodule : graph.modules[id]? = some m) :
    (graph.modules.zip candidates)[id]? = some (m, candidates.getD id ∅) := by
  obtain ⟨hid, _⟩ := List.getElem?_eq_some_iff.mp hmodule
  rw [List.getElem?_zip_eq_some]
  refine ⟨hmodule, ?_⟩
  rw [List.getD_eq_getElem?_getD, List.getElem?_eq_getElem (hlength ▸ hid)]
  rfl

/-- nothing is found from outside the graph -/
theorem not_finds_of_le {id : ModuleId} (h : graph.modules.length ≤ id) {name : String}
    {target : ResolvedName} : ¬ graph.Finds id name target := by
  rintro ⟨id', hreach, hnames⟩
  have himports := importsOf_of_le h
  obtain rfl | ⟨_, ⟨i, hi, _⟩, _⟩ := hreach.cases_head
  · obtain ⟨m, _, _, hmodule, _⟩ | ⟨i, hi, _⟩ := hnames
    · rw [List.getElem?_eq_none h] at hmodule
      cases hmodule
    · rw [himports] at hi
      exact absurd hi List.not_mem_nil
  · rw [himports] at hi
    exact absurd hi List.not_mem_nil

theorem NamespaceTable.new_ok {table : NamespaceTable} (h : NamespaceTable.new graph = .ok table) :
    table.exports.length = graph.modules.length ∧ (∀ id, ¬ graph.RepeatsAlias id) ∧
      (∀ id name, ¬ graph.Ambiguous id name) ∧
      ∀ id exports, table.exports[id]? = some exports →
        ∀ name target, exports.get name = some target ↔ graph.Finds id name target := by
  obtain ⟨initial, hinitial, h⟩ := bind_eq_ok.mp h
  obtain ⟨exports, hexports, htable⟩ := bind_eq_ok.mp h
  obtain rfl := pure_eq_ok.mp htable
  have hlength : (closeCandidates graph.imports initial).length = graph.modules.length :=
    (length_closeCandidates _ _).trans (initialCandidates_length hinitial)
  have hcount : exports.length = graph.modules.length := by
    rw [← (mapM_ok hexports).length_eq, List.length_zip, hlength, Nat.min_self]
  have hmodule : ∀ id m, graph.modules[id]? = some m → ∃ moduleTable, exports[id]? = some moduleTable ∧
      moduleExports m ((closeCandidates graph.imports initial).getD id ∅) = .ok moduleTable :=
    fun id m hm => getElem?_of_mapM_ok hexports (getElem?_zip_candidates hlength hm)
  refine ⟨hcount, nodup_of_initialCandidates hinitial, ?_, ?_⟩
  · rintro id name ⟨target, target', hne, hfound, hfound'⟩
    obtain hid | hid := Nat.lt_or_ge id graph.modules.length
    · obtain ⟨moduleTable, _, hok⟩ := hmodule id _ (List.getElem?_eq_getElem hid)
      exact hne ((moduleExports_ok hok).2 name target ((mem_closeCandidates hinitial).mpr hfound)
        target' ((mem_closeCandidates hinitial).mpr hfound'))
    · exact not_finds_of_le hid hfound
  · intro id moduleTable hget name target
    obtain ⟨hid, _⟩ := List.getElem?_eq_some_iff.mp hget
    obtain ⟨moduleTable', hget', hok⟩ :=
      hmodule id _ (List.getElem?_eq_getElem (hcount ▸ hid : id < graph.modules.length))
    obtain rfl : moduleTable = moduleTable' := Option.some.inj (hget.symm.trans hget')
    rw [(moduleExports_ok hok).1, mem_closeCandidates hinitial]

theorem NamespaceTable.exists_new (halias : ∀ id, ¬ graph.RepeatsAlias id)
    (hname : ∀ id name, ¬ graph.Ambiguous id name) :
    ∃ table, NamespaceTable.new graph = .ok table := by
  obtain ⟨initial, hinitial⟩ := exists_initialCandidates halias
  have hlength : (closeCandidates graph.imports initial).length = graph.modules.length :=
    (length_closeCandidates _ _).trans (initialCandidates_length hinitial)
  have hexports : ∃ exports, ((graph.modules.zip (closeCandidates graph.imports initial)).mapM
      fun item => moduleExports item.1 item.2) = .ok exports := by
    apply exists_mapM_ok
    rintro ⟨m, candidates⟩ hmem
    obtain ⟨id, hget⟩ := List.mem_iff_getElem?.mp hmem
    obtain ⟨hm, hc⟩ := List.getElem?_zip_eq_some.mp hget
    apply exists_moduleExports
    intro name target htarget target' htarget'
    have hcandidates : (closeCandidates graph.imports initial).getD id ∅ = candidates := by
      rw [List.getD_eq_getElem?_getD, hc]
      rfl
    by_contra hne
    refine hname id name ⟨target, target', hne, ?_, ?_⟩
    · exact (mem_closeCandidates hinitial).mp (hcandidates ▸ htarget)
    · exact (mem_closeCandidates hinitial).mp (hcandidates ▸ htarget')
  obtain ⟨exports, hexports⟩ := hexports
  exact ⟨⟨exports⟩, bind_eq_ok.mpr ⟨initial, hinitial, bind_eq_ok.mpr ⟨exports, hexports, rfl⟩⟩⟩

end

/-! ## the order of modules and imports -/

/-- a target after the modules are renumbered -/
def DeclId.renumber (σ : ModuleId → ModuleId) (id : DeclId) : DeclId :=
  ⟨σ id.moduleId, id.kind, id.index⟩

def ResolvedName.renumber (σ : ModuleId → ModuleId) : ResolvedName → ResolvedName
  | namespaceOf id => namespaceOf (σ id)
  | declaration id => declaration (id.renumber σ)
  | appMember member => appMember ⟨member.app.renumber σ, member.actor.renumber σ⟩

theorem ResolvedName.renumber_symm (σ : Equiv.Perm ModuleId) (target : ResolvedName) :
    (target.renumber σ).renumber σ.symm = target := by
  cases target <;> simp [ResolvedName.renumber, DeclId.renumber]

def ResolvedImport.renumber (σ : ModuleId → ModuleId) (i : ResolvedImport) : ResolvedImport :=
  ⟨σ i.target, i.aliasName⟩

/-- the same modules under other numbers, the imports of each in any order -/
structure Renumbers (graph graph' : ModuleGraph) (σ : Equiv.Perm ModuleId) : Prop where
  modules : ∀ id, graph'.modules[σ id]? = graph.modules[id]?
  imports : ∀ id, (graph'.importsOf (σ id)).Perm
    ((graph.importsOf id).map (ResolvedImport.renumber σ))

namespace Renumbers
variable {graph graph' : ModuleGraph} {σ : Equiv.Perm ModuleId}

theorem symm (h : Renumbers graph graph' σ) : Renumbers graph' graph σ.symm := by
  constructor
  · intro id
    rw [← h.modules, Equiv.apply_symm_apply]
  · intro id
    have hperm := (h.imports (σ.symm id)).map (ResolvedImport.renumber σ.symm)
    rw [Equiv.apply_symm_apply, List.map_map] at hperm
    have hback : ResolvedImport.renumber σ.symm ∘ ResolvedImport.renumber σ =
        fun i => i := by
      funext i
      simp [ResolvedImport.renumber]
    rw [hback, List.map_id'] at hperm
    exact hperm.symm

variable (h : Renumbers graph graph' σ)
include h

theorem mem_imports {id : ModuleId} {i : ResolvedImport} (hi : i ∈ graph.importsOf id) :
    i.renumber σ ∈ graph'.importsOf (σ id) :=
  (h.imports id).mem_iff.mpr (List.mem_map_of_mem hi)

theorem names {id : ModuleId} {name : String} {target : ResolvedName}
    (hnames : graph.Names id name target) : graph'.Names (σ id) name (target.renumber σ) := by
  obtain ⟨m, kind, index, hmodule, hname, rfl⟩ | ⟨i, hi, halias, rfl⟩ := hnames
  · exact .inl ⟨m, kind, index, (h.modules id).trans hmodule, hname, rfl⟩
  · exact .inr ⟨i.renumber σ, h.mem_imports hi, halias, rfl⟩

theorem finds {id : ModuleId} {name : String} {target : ResolvedName}
    (hfinds : graph.Finds id name target) : graph'.Finds (σ id) name (target.renumber σ) := by
  obtain ⟨id', hreach, hnames⟩ := hfinds
  refine ⟨σ id', ?_, h.names hnames⟩
  apply hreach.lift σ
  rintro a b ⟨i, hi, halias, rfl⟩
  exact ⟨i.renumber σ, h.mem_imports hi, halias, rfl⟩

theorem repeatsAlias {id : ModuleId} (hrepeats : graph.RepeatsAlias id) :
    graph'.RepeatsAlias (σ id) := by
  intro hnodup
  apply hrepeats
  have hperm := (h.imports id).filterMap ResolvedImport.aliasName
  rw [List.filterMap_map] at hperm
  exact hperm.nodup_iff.mp hnodup

theorem ambiguous {id : ModuleId} {name : String} (hambiguous : graph.Ambiguous id name) :
    graph'.Ambiguous (σ id) name := by
  obtain ⟨target, target', hne, hfound, hfound'⟩ := hambiguous
  refine ⟨target.renumber σ, target'.renumber σ, fun heq => hne ?_, h.finds hfound, h.finds hfound'⟩
  rw [← ResolvedName.renumber_symm σ target, heq, ResolvedName.renumber_symm]

end Renumbers

theorem Renumbers.exists_new {graph graph' : ModuleGraph} {σ : Equiv.Perm ModuleId}
    (h : Renumbers graph graph' σ) {table : NamespaceTable}
    (htable : NamespaceTable.new graph = .ok table) :
    ∃ table', NamespaceTable.new graph' = .ok table' := by
  obtain ⟨_, halias, hname, _⟩ := NamespaceTable.new_ok htable
  apply NamespaceTable.exists_new
  · exact fun id hrepeats => halias _ (h.symm.repeatsAlias hrepeats)
  · exact fun id name hambiguous => hname _ name (h.symm.ambiguous hambiguous)

theorem Renumbers.get_exports {graph graph' : ModuleGraph} {σ : Equiv.Perm ModuleId}
    (h : Renumbers graph graph' σ) {table table' : NamespaceTable}
    (htable : NamespaceTable.new graph = .ok table)
    (htable' : NamespaceTable.new graph' = .ok table') {id : ModuleId} {exports exports' : Exports}
    (hget : table.exports[id]? = some exports) (hget' : table'.exports[σ id]? = some exports')
    (name : String) : exports'.get name = (exports.get name).map (ResolvedName.renumber σ) := by
  obtain ⟨_, _, _, hexact⟩ := NamespaceTable.new_ok htable
  obtain ⟨_, _, _, hexact'⟩ := NamespaceTable.new_ok htable'
  apply Option.ext
  intro target
  rw [hexact' _ _ hget', Option.map_eq_some_iff]
  constructor
  · intro hfinds
    have hback := h.symm.finds hfinds
    rw [Equiv.symm_apply_apply] at hback
    refine ⟨target.renumber σ.symm, (hexact _ _ hget _ _).mpr hback, ?_⟩
    exact ResolvedName.renumber_symm σ.symm target
  · rintro ⟨target', hold, rfl⟩
    exact h.finds ((hexact _ _ hget _ _).mp hold)

/-! ## the table -/

/-- **the table of a module graph**: the loop ends after finitely many rounds; the exports of a
module are exactly the declarations and aliases of the modules it reaches through unaliased
imports; the table fails exactly when a module imports one alias twice or reaches two targets
under one name; and neither the order of the imports nor that of the modules matters -/
theorem NamespaceTable.new_exact (graph : ModuleGraph) :
    (∀ initial : List Candidates, ∃ rounds,
      closeCandidates graph.imports initial = (nextCandidates graph.imports)^[rounds] initial ∧
        nextCandidates graph.imports (closeCandidates graph.imports initial) =
          closeCandidates graph.imports initial) ∧
    (∀ table, NamespaceTable.new graph = .ok table →
      table.exports.length = graph.modules.length ∧
        ∀ id exports, table.exports[id]? = some exports → ∀ name target,
          exports.get name = some target ↔ graph.Finds id name target) ∧
    ((∃ e, NamespaceTable.new graph = .error e) ↔
      (∃ id, graph.RepeatsAlias id) ∨ ∃ id name, graph.Ambiguous id name) ∧
    ∀ graph' (σ : Equiv.Perm ModuleId), Renumbers graph graph' σ →
      ((∃ table, NamespaceTable.new graph = .ok table) ↔
        ∃ table, NamespaceTable.new graph' = .ok table) ∧
      ∀ table table', NamespaceTable.new graph = .ok table →
        NamespaceTable.new graph' = .ok table' → ∀ id exports exports',
          table.exports[id]? = some exports → table'.exports[σ id]? = some exports' →
            ∀ name, exports'.get name = (exports.get name).map (ResolvedName.renumber σ) := by
  refine ⟨fun initial => ?_, fun table htable => ?_, ⟨?_, ?_⟩, fun graph' σ h => ⟨⟨?_, ?_⟩, ?_⟩⟩
  · obtain ⟨rounds, hrounds, _⟩ := Saturate.saturate_eq_iterate
      (MultiMap.growing (spreads_nextCandidates graph.imports)) initial
    exact ⟨rounds, hrounds, Saturate.step_saturate _ initial⟩
  · obtain ⟨hlength, _, _, hexact⟩ := NamespaceTable.new_ok htable
    exact ⟨hlength, hexact⟩
  · rintro ⟨e, he⟩
    by_contra hneither
    obtain ⟨halias, hname⟩ := not_or.mp hneither
    obtain ⟨table, htable⟩ := NamespaceTable.exists_new (not_exists.mp halias)
      fun id name hambiguous => hname ⟨id, name, hambiguous⟩
    rw [he] at htable
    cases htable
  · intro hbad
    cases hnew : NamespaceTable.new graph with
    | error e => exact ⟨e, rfl⟩
    | ok table =>
      obtain ⟨_, halias, hname, _⟩ := NamespaceTable.new_ok hnew
      obtain ⟨id, hrepeats⟩ | ⟨id, name, hambiguous⟩ := hbad
      · exact absurd hrepeats (halias id)
      · exact absurd hambiguous (hname id name)
  · rintro ⟨table, htable⟩
    exact h.exists_new htable
  · rintro ⟨table, htable⟩
    exact h.symm.exists_new htable
  · intro table table' htable htable' id exports exports' hget hget'
    exact h.get_exports htable htable' hget hget'

end Argent.Resolve
