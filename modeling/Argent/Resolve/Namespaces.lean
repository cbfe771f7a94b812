import Argent.Base.MultiMap
import Argent.Resolve.Modules

/-!
# Namespaces

`NamespaceTable::new` of `compiler/resolve/namespaces.rs`.  Every module starts with its own
declarations and the aliases of its imports; the names of unaliased imports are added until nothing
changes, and a name that then refers to two things is an error.

* `moduleCandidates`      the names a module has by itself, or the alias it imports twice;
* `nextCandidates`        the loop body: every unaliased import is followed once;
* `moduleExports`         the single target of each name, or the first ambiguous name;
* `NamespaceTable.new`    the names that are available in each module.
-/

set_option linter.unusedSectionVars false

namespace Argent.Resolve
open Argent.Fallible

/-- the targets that were found under each name of a module -/
abbrev Candidates := MultiMap String ResolvedName

/-! ## the names of one module -/

/-- the declarations of one kind, each under its name -/
def insertDeclarations (id : ModuleId) (m : Module) (candidates : Candidates) (kind : SymbolKind) :
    Candidates :=
  (m.names kind).zipIdx.foldl
    (fun candidates item => candidates.add item.1 (.declaration ⟨id, kind, item.2⟩)) candidates

def declarationCandidates (id : ModuleId) (m : Module) : Candidates :=
  SymbolKind.all.foldl (insertDeclarations id m) ∅

/-- one import: `aliases` are those of the imports before it -/
def insertAlias (m : Module) (found : BTreeSet String × Candidates) (i : ResolvedImport) :
    Except ArgentError (BTreeSet String × Candidates) :=
  match i.aliasName with
  | none => .ok found
  | some aliasName =>
    if aliasName ∈ found.1 then
      .error (.at m.path s!"module alias `{aliasName}` is imported more than once")
    else .ok (insert aliasName found.1, found.2.add aliasName (.namespaceOf i.target))

def moduleCandidates (id : ModuleId) (m : Module) (imports : List ResolvedImport) :
    Except ArgentError Candidates := do
  let found ← imports.foldlM (insertAlias m) (∅, declarationCandidates id m)
  return found.2

def initialCandidates (graph : ModuleGraph) : Except ArgentError (List Candidates) :=
  (graph.modules.zip graph.imports).zipIdx.mapM fun item =>
    moduleCandidates item.2 item.1.1 item.1.2

/-! ## imports of imports -/

/-- the imports that bring the names of their module along -/
def unaliased (imports : List ResolvedImport) : List ResolvedImport :=
  imports.filter fun i => i.aliasName.isNone

/-- the names of the imported modules added to `own` -/
def absorbImports (candidates : List Candidates) (own : Candidates)
    (imports : List ResolvedImport) : Candidates :=
  (unaliased imports).foldl (fun own i => own.absorb (candidates.getD i.target ∅)) own

/-- one round of the loop -/
def nextCandidates (imports : List (List ResolvedImport)) (candidates : List Candidates) :
    List Candidates :=
  candidates.zipIdx.map fun item => absorbImports candidates item.1 (imports.getD item.2 [])

theorem marks_getD_subset (candidates : List Candidates) (id : ModuleId) :
    (candidates.getD id ∅).marks ⊆ MultiMap.tableMarks candidates := by
  rw [List.getD_eq_getElem?_getD]
  obtain hnone | ⟨c, hc⟩ := Option.eq_none_or_eq_some candidates[id]?
  · rw [hnone]
    exact Finset.empty_subset _
  · rw [hc]
    exact MultiMap.marks_subset_tableMarks (List.mem_of_getElem? hc)

theorem marks_subset_absorbImports (candidates : List Candidates) (own : Candidates)
    (imports : List ResolvedImport) : own.marks ⊆ (absorbImports candidates own imports).marks := by
  unfold absorbImports
  induction unaliased imports generalizing own with
  | nil => exact subset_rfl
  | cons i rest ih =>
    rw [List.foldl_cons]
    exact (MultiMap.marks_subset_absorb _ _).trans (ih _)

theorem marks_absorbImports_subset (candidates : List Candidates) {own : Candidates}
    (imports : List ResolvedImport) (hown : own.marks ⊆ MultiMap.tableMarks candidates) :
    (absorbImports candidates own imports).marks ⊆ MultiMap.tableMarks candidates := by
  unfold absorbImports
  induction unaliased imports generalizing own with
  | nil => exact hown
  | cons i rest ih =>
    rw [List.foldl_cons]
    exact ih (MultiMap.marks_absorb_subset hown (marks_getD_subset candidates i.target))

theorem spreads_nextCandidates (imports : List (List ResolvedImport))
    (candidates : List Candidates) :
    MultiMap.Spreads candidates (nextCandidates imports candidates) := by
  have hlength : (nextCandidates imports candidates).length = candidates.length := by
    unfold nextCandidates
    rw [List.length_map, List.length_zipIdx]
  have hget : ∀ i (hi : i < candidates.length) (hi' : i < (nextCandidates imports candidates).length),
      (nextCandidates imports candidates)[i] =
        absorbImports candidates candidates[i] (imports.getD i []) := by
    intro i hi hi'
    simp only [nextCandidates, List.getElem_map, List.getElem_zipIdx, Nat.zero_add]
  constructor
  · refine List.forall₂_iff_get.mpr ⟨hlength.symm, fun i hi hi' => ?_⟩
    rw [List.get_eq_getElem, List.get_eq_getElem, hget i hi hi']
    exact marks_subset_absorbImports _ _ _
  · intro n hn
    obtain ⟨i, hi, rfl⟩ := List.getElem_of_mem hn
    have hi' : i < candidates.length := hlength ▸ hi
    rw [hget i hi' hi]
    apply marks_absorbImports_subset
    exact MultiMap.marks_subset_tableMarks (List.getElem_mem hi')

/-- repeat until imports of imports have also been included -/
def closeCandidates (imports : List (List ResolvedImport)) (candidates : List Candidates) :
    List Candidates :=
  Saturate.saturate (MultiMap.growing (spreads_nextCandidates imports)) candidates

/-! ## exports -/

abbrev Exports := BTreeMap String ResolvedName

/-- one name of a module with its possible targets -/
def insertExport (m : Module) (exports : Exports) (entry : String × BTreeSet ResolvedName) :
    Except ArgentError Exports :=
  match entry.2.toList with
  | [] => .ok exports
  | [target] => .ok (exports.insert entry.1 target)
  | _ :: _ :: _ => .error (.at m.path s!"ambiguous export `{entry.1}` in module namespace")

def moduleExports (m : Module) (candidates : Candidates) : Except ArgentError Exports :=
  candidates.entries.foldlM (insertExport m) ∅

/-- the names available in each module, including imports -/
structure NamespaceTable where
  exports : List Exports

/-- collects the names available in each module and rejects names that refer to different things -/
def NamespaceTable.new (graph : ModuleGraph) : Except ArgentError NamespaceTable := do
  let initial ← initialCandidates graph
  let candidates := closeCandidates graph.imports initial
  let exports ← (graph.modules.zip candidates).mapM fun item => moduleExports item.1 item.2
  return ⟨exports⟩

end Argent.Resolve
