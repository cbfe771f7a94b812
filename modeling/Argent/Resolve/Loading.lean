import Argent.Base.Stable
import Argent.Resolve.OutputNamesOrder

/-!
# Loading a program

`SourceSet::discover_file` of `compiler/loader/mod.rs`: a file is loaded once, with the path by which
it was imported first, and its imports are loaded in their order.

* `SourceSet.loadFile`      one file and everything it imports;
* `helperProject`           a file that is imported by two paths;
* `importOrder_renames`        **which of the two comes first decides an output name**.
-/

set_option linter.unusedSectionVars false

namespace Argent.Resolve
open Argent.Fallible

/-! ## paths -/

/-- `Path::join` -/
def joinPath (base path : String) : String :=
  match path.toList with
  | '/' :: _ => path
  | _ => if base.toList.getLast? = some '/' then base ++ path else base ++ "/" ++ path

/-- `Path::parent` of an absolute path -/
def parentPath (path : String) : Option String :=
  match (path.toList.splitOn '/').dropLast with
  | [] => none
  | [[]] => if path = "/" then none else some "/"
  | components => some (String.ofList (['/'].intercalate components))

/-- `std::path::absolute`, which keeps parent directories -/
def absolutePath (currentDir path : String) : String :=
  String.ofList ('/' :: ['/'].intercalate
    (((joinPath currentDir path).toList.splitOn '/').filter fun c => c ≠ [] ∧ c ≠ ['.']))

/-! ## the loader -/

/-- an import statement -/
structure Import where
  path : String
  aliasName : Option String
deriving Repr, DecidableEq

/-- a source text: its import statements and, for a display path, its declarations -/
structure SourceText where
  imports : List Import
  parse : String → Module

/-- the files that can be read, by their canonical paths, and the bundled modules -/
structure FileSystem where
  currentDir : String
  canonicalize : String → Except ArgentError String
  read : String → Except ArgentError SourceText
  standardSource : String → Except ArgentError SourceText

inductive SourceIdentity where
  | file (canonical : String)
  | standard (path : String)
deriving Repr, DecidableEq

/-- the modules so far, with the imports of each that were loaded -/
structure SourceSet where
  files : List Module
  edges : List (List ResolvedImport)
  sourceIds : List (SourceIdentity × ModuleId)
deriving DecidableEq

def isStandardModule (path : String) : Bool := path.startsWith "std::"

namespace SourceSet

def find (sources : SourceSet) (identity : SourceIdentity) : Option ModuleId :=
  (sources.sourceIds.find? fun known => known.1 = identity).map Prod.snd

/-- the new module has the next number and no edges yet -/
def insertSource (sources : SourceSet) (identity : SourceIdentity) (m : Module) : SourceSet where
  files := sources.files ++ [m]
  edges := sources.edges ++ [[]]
  sourceIds := sources.sourceIds ++ [(identity, sources.files.length)]

def pushEdge (sources : SourceSet) (id : ModuleId) (i : ResolvedImport) : SourceSet :=
  { sources with edges := sources.edges.modify id fun imports => imports ++ [i] }

/-- the imports of one module, loaded one after the other -/
def loadImports (load : Import → SourceSet → Bound (SourceSet × ModuleId)) (id : ModuleId)
    (imports : List Import) (sources : SourceSet) : Bound SourceSet :=
  imports.foldlM (fun sources discovered => do
    let (sources, target) ← load discovered sources
    return sources.pushEdge id ⟨target, discovered.aliasName⟩) sources

/-- a source that may be loaded already; `load` loads one that it imports -/
def loadSource (load : Import → SourceSet → Bound (SourceSet × ModuleId))
    (identity : SourceIdentity) (displayPath : String) (read : Bound SourceText)
    (sources : SourceSet) : Bound (SourceSet × ModuleId) :=
  match sources.find identity with
  | some id => .ok (sources, id)
  | none => do
    let text ← read
    let id := sources.files.length
    let sources ← loadImports load id text.imports
      (sources.insertSource identity (text.parse displayPath))
    return (sources, id)

variable (files : FileSystem)

/-- `depth` bounds the calls that are open at one time -/
def loadStandard : Nat → String → SourceSet → Bound (SourceSet × ModuleId)
  | 0, _, _ => .error (.panic "stack overflow")
  | depth + 1, path, sources =>
    loadSource (fun discovered sources =>
        if isStandardModule discovered.path then loadStandard depth discovered.path sources
        else fail (.new (s!"Argent standard module `{discovered.path}` " ++
          "cannot import a filesystem module")))
      (.standard path) path ((files.standardSource path).mapError .error) sources

def loadFile : Nat → String → SourceSet → Bound (SourceSet × ModuleId)
  | 0, _, _ => .error (.panic "stack overflow")
  | depth + 1, path, sources => do
    let canonical ← (files.canonicalize path).mapError .error
    loadSource (fun discovered sources =>
        if isStandardModule discovered.path then loadStandard files depth discovered.path sources
        else loadFile depth (joinPath ((parentPath canonical).getD "") discovered.path) sources)
      (.file canonical) (absolutePath files.currentDir path)
      (do
        let text ← (files.read canonical).mapError .error
        rejectIf ((parentPath canonical).isNone)
          (.error (.at (absolutePath files.currentDir path) "module path has no parent"))
        return text) sources

/-- `discover_file`: the modules of a root file -/
def discoverFile (depth : Nat) (path : String) : Bound (SourceSet × ModuleId) :=
  loadFile files depth path ⟨[], [], []⟩

end SourceSet

/-! ## a file that is imported by two paths -/

/-- `import … fn main() { m::helper(); z::helper(); }`, and two files with `fn helper()` -/
def helperText (imports : List Import) : String → SourceText
  | "/p/root.ag" => ⟨imports, fun path => ⟨path, [], [], ["main"], [], [], []⟩⟩
  | _ => ⟨[], fun path => ⟨path, [], [], ["helper"], [], [], []⟩⟩

def helperProject (imports : List Import) : FileSystem where
  currentDir := "/p"
  canonicalize := fun path =>
    if path ∈ ["/p/root.ag", "/p/m.ag", "/p/z.ag"] then .ok path
    else if path = "/p/a/../z.ag" then .ok "/p/z.ag"
    else .error (.at path "No such file or directory")
  read := fun canonical => .ok (helperText imports canonical)
  standardSource := fun path => .error (.new s!"unknown Argent standard module `{path}`")

/-- `import "m.ag" as m; import "z.ag" as z; import "a/../z.ag" as y;` -/
def helperImports : List Import :=
  [⟨"m.ag", some "m"⟩, ⟨"z.ag", some "z"⟩, ⟨"a/../z.ag", some "y"⟩]

/-- the modules of the project, by their display paths -/
def helperModules (second third : String) : List Module :=
  [⟨"/p/root.ag", [], [], ["main"], [], [], []⟩, ⟨second, [], [], ["helper"], [], [], []⟩,
    ⟨third, [], [], ["helper"], [], [], []⟩]

/-- the imports of the root module, when `m.ag` has the number `m` and `z.ag` the number `z` -/
def helperEdges (m z : ModuleId) : List ResolvedImport :=
  [⟨m, some "m"⟩, ⟨z, some "z"⟩, ⟨z, some "y"⟩]

def mainId : DeclId := ⟨0, .function, 0⟩
def helperId (id : ModuleId) : DeclId := ⟨id, .function, 0⟩

def helperTable (m z : ModuleId) : NamespaceTable :=
  ⟨[(BTreeMap.insert "z" (.namespaceOf z) ∘ BTreeMap.insert "y" (.namespaceOf z) ∘
      BTreeMap.insert "main" (.declaration mainId) ∘ BTreeMap.insert "m" (.namespaceOf m)) ∅,
    BTreeMap.insert "helper" (.declaration (helperId 1)) ∅,
    BTreeMap.insert "helper" (.declaration (helperId 2)) ∅]⟩

/-- `main` calls both helpers -/
def helperBindings : BTreeMap DeclId DeclarationBindings :=
  (BTreeMap.insert mainId ⟨{helperId 1, helperId 2}, ∅, ∅, fun _ => none, ∅, []⟩ ∘
    BTreeMap.insert (helperId 1) ⟨∅, ∅, ∅, fun _ => none, ∅, []⟩ ∘
    BTreeMap.insert (helperId 2) ⟨∅, ∅, ∅, fun _ => none, ∅, []⟩) ∅

/-- the graph as it is loaded -/
def helperGraph (second third : String) (imports : List ResolvedImport)
    (h : ∀ i ∈ imports, i.target < 3) : ModuleGraph where
  modules := helperModules second third
  imports := [imports, [], []]
  length_eq := rfl
  targets_lt := by
    intro moduleImports himports i hi
    obtain rfl | himports := List.mem_cons.mp himports
    · exact h i hi
    · have hnil : moduleImports = [] := by simpa using himports
      rw [hnil] at hi
      exact absurd hi List.not_mem_nil

theorem names_helperModules {second third : String} {m : Module}
    (h : m ∈ helperModules second third) : m.apps = [] := by
  simp only [helperModules, List.mem_cons, List.not_mem_nil, or_false] at h
  obtain rfl | rfl | rfl := h
  · rfl
  · rfl
  · rfl

def helpers (second third : String) (imports : List ResolvedImport)
    (h : ∀ i ∈ imports, i.target < 3) (table : NamespaceTable)
    (htable : NamespaceTable.new (helperGraph second third imports h) = .ok table) :
    ResolvedModules where
  program := ⟨helperGraph second third imports h, table, htable⟩
  root := 0
  bindings := helperBindings
  app_actors := by
    intro app decl happ
    unfold ResolvedExports.appDecl at happ
    split_ifs at happ
    obtain ⟨m, hmodule, hindex⟩ := Option.bind_eq_some_iff.mp happ
    rw [names_helperModules (List.mem_of_getElem? hmodule)] at hindex
    cases hindex
  bound_declarations := by
    intro id recorded hget id' hid'
    simp only [helperBindings, Function.comp, BTreeMap.get_insert, BTreeMap.get_empty] at hget
    split_ifs at hget
    · obtain rfl := Option.some.inj hget
      obtain rfl | hid' := BTreeSet.mem_insert.mp hid'
      · exact ⟨_, rfl, Nat.zero_lt_one⟩
      · obtain rfl := BTreeSet.mem_singleton.mp hid'
        exact ⟨_, rfl, Nat.zero_lt_one⟩
    · obtain rfl := Option.some.inj hget
      exact absurd hid' (BTreeSet.not_mem_empty id')
    · obtain rfl := Option.some.inj hget
      exact absurd hid' (BTreeSet.not_mem_empty id')
  bound_apps := by
    intro id recorded hget member hmember
    simp only [helperBindings, Function.comp, BTreeMap.get_insert, BTreeMap.get_empty] at hget
    split_ifs at hget
    · rw [← Option.some.inj hget] at hmember
      exact absurd hmember (BTreeSet.not_mem_empty member)
    · rw [← Option.some.inj hget] at hmember
      exact absurd hmember (BTreeSet.not_mem_empty member)
    · rw [← Option.some.inj hget] at hmember
      exact absurd hmember (BTreeSet.not_mem_empty member)

section
variable {second third : String} {imports : List ResolvedImport}
variable {h : ∀ i ∈ imports, i.target < 3} {m z : ModuleId}
variable {htable : NamespaceTable.new (helperGraph second third imports h) = .ok (helperTable m z)}

theorem refersTo_helpers {id id' : DeclId} :
    (helpers second third imports h _ htable).RefersTo id id' ↔
      id = mainId ∧ (id' = helperId 1 ∨ id' = helperId 2) := by
  unfold ResolvedModules.RefersTo
  show (∃ recorded, helperBindings.get id = some recorded ∧ id' ∈ recorded.declarations) ↔ _
  simp only [helperBindings, Function.comp, BTreeMap.get_insert, BTreeMap.get_empty]
  split_ifs with hmain hfirst hsecond
  · simp only [hmain, true_and, Option.some.injEq, exists_eq_left', BTreeSet.mem_insert,
      BTreeSet.mem_singleton]
  · simp [hfirst, mainId, helperId]
  · simp [hsecond, mainId, helperId]
  · simp [hmain]

def helperDeclarations : BTreeSet DeclId := {mainId, helperId 1, helperId 2}

theorem keys_helperExports :
    ((BTreeMap.insert "z" (ResolvedName.namespaceOf z) ∘ BTreeMap.insert "y" (.namespaceOf z) ∘
      BTreeMap.insert "main" (.declaration mainId) ∘ BTreeMap.insert "m" (.namespaceOf m)) ∅).keys.toList =
        ["m", "main", "y", "z"] := by
  show (insert "z" (insert "y" (insert "main" (insert "m" (∅ : BTreeSet String))))).toList = _
  decide +kernel

theorem rootDeclarations_helpers :
    (helpers second third imports h _ htable).rootDeclarations = [mainId] := by
  show (List.filterMap _ (List.filterMap _ _) : List DeclId) = _
  rw [keys_helperExports]
  rfl

theorem mem_helperDeclarations {id : DeclId} :
    id ∈ helperDeclarations ↔ id = mainId ∨ id = helperId 1 ∨ id = helperId 2 := by
  unfold helperDeclarations
  rw [BTreeSet.mem_insert, BTreeSet.mem_insert, BTreeSet.mem_singleton]

theorem selectedDeclarations_helpers :
    (helpers second third imports h _ htable).selectedDeclarations none =
      .ok helperDeclarations := by
  refine congrArg Except.ok (BTreeSet.ext_mem fun id => ?_)
  rw [ResolvedModules.mem_declarationClosure, rootDeclarations_helpers, mem_helperDeclarations]
  constructor
  · rintro ⟨start, hstart, hreach⟩
    obtain rfl := List.mem_singleton.mp hstart
    obtain rfl | ⟨_, _, hrefers⟩ := hreach.cases_tail
    · exact .inl rfl
    · exact .inr (refersTo_helpers.mp hrefers).2
  · intro hid
    refine ⟨mainId, List.mem_singleton_self _, ?_⟩
    obtain rfl | hid := hid
    · exact .refl
    · exact .single (refersTo_helpers.mpr ⟨rfl, hid⟩)

theorem orderedDeclarations_helpers (hpath : pathComponents second < pathComponents third) :
    (helpers second third imports h _ htable).orderedDeclarations helperDeclarations =
      [mainId, helperId 1, helperId 2] := by
  refine Stable.sortByKey_eq helperDeclarations.sorted ?_ ?_
  · have hlist : helperDeclarations.toList = [mainId, helperId 1, helperId 2] := by decide +kernel
    rw [hlist]
  · have hroot : ∀ id, decide (id ∉ (helpers second third imports h _ htable).rootDeclarations) =
        decide (id ≠ mainId) := by
      intro id
      rw [rootDeclarations_helpers]
      exact decide_eq_decide.mpr (not_congr List.mem_singleton)
    have hmain : ∀ i, i ≠ 0 → Stable.place
        (helpers second third imports h _ htable).orderKey mainId < Stable.place
          (helpers second third imports h _ htable).orderKey (helperId i) := by
      intro i hi
      have hne : helperId i ≠ mainId := fun heq => hi (congrArg DeclId.moduleId heq)
      refine Stable.place_lt.mpr (.inl (Prod.Lex.toLex_lt_toLex.mpr (.inl ?_)))
      rw [hroot, hroot, decide_eq_true hne]
      exact Bool.false_lt_true
    have hfiles : Stable.place (helpers second third imports h _ htable).orderKey (helperId 1) <
        Stable.place (helpers second third imports h _ htable).orderKey (helperId 2) := by
      refine Stable.place_lt.mpr (.inl (Prod.Lex.toLex_lt_toLex.mpr (.inr ⟨?_, ?_⟩)))
      · rw [hroot, hroot]
        rfl
      · exact Prod.Lex.toLex_lt_toLex.mpr (.inl hpath)
    refine List.pairwise_cons.mpr ⟨fun id hid => ?_, List.pairwise_pair.mpr hfiles⟩
    obtain rfl | hid := List.mem_cons.mp hid
    · exact hmain 1 Nat.one_ne_zero
    · rw [List.mem_singleton.mp hid]
      exact hmain 2 (by decide)

theorem mayKeepName_helpers (id : DeclId) :
    (helpers second third imports h _ htable).MayKeepName helperDeclarations [] id := by
  refine ⟨List.not_mem_nil, fun hmem => ?_⟩
  obtain ⟨owner, howner, _, hname⟩ := ResolvedModules.mem_foreignLocals.mp hmem
  obtain rfl | rfl | rfl := mem_helperDeclarations.mp howner
  · exact absurd hname List.not_mem_nil
  · exact absurd hname List.not_mem_nil
  · exact absurd hname List.not_mem_nil

theorem written_helper : Written "helper" := by
  intro suffix sourceName heq
  have hhead := congrArg (fun s => s.toList.head?) heq
  unfold generatedName RESERVED_GENERATED_MODULE_NAME_PREFIX at hhead
  simp only [String.toList_append, List.append_assoc] at hhead
  exact absurd (Option.some.inj hhead) (by decide)

/-- the helper in the file with the smaller path keeps its name, and the other one does not -/
theorem names_helpers (hpath : pathComponents second < pathComponents third) :
    ∃ names, (helpers second third imports h _ htable).selectedDeclarationNames none [] = .ok names ∧
      names.get (helperId 1) = some "helper" ∧ names.get (helperId 2) ≠ some "helper" := by
  have hdeclarations : (helpers second third imports h _ htable).selectedDeclarations none =
      .ok helperDeclarations := selectedDeclarations_helpers
  have hspelled : (helpers second third imports h _ htable).spelled helperDeclarations [] "helper" =
      some (helperId 1) := by
    have hkeepers : (helpers second third imports h _ htable).keepers helperDeclarations []
        [mainId, helperId 1, helperId 2] = [mainId, helperId 1, helperId 2] :=
      List.filter_eq_self.mpr fun id _ => decide_eq_true (mayKeepName_helpers id)
    unfold ResolvedModules.spelled ResolvedModules.keeper
    rw [orderedDeclarations_helpers hpath, hkeepers]
    rfl
  refine ⟨_, bind_eq_ok.mpr ⟨_, hdeclarations, rfl⟩, ?_, fun hget => ?_⟩
  · exact (ResolvedModules.selectedDeclarationNames_get hdeclarations
      (bind_eq_ok.mpr ⟨_, hdeclarations, rfl⟩) written_helper List.not_mem_nil).mpr hspelled
  · have hspelled' := (ResolvedModules.selectedDeclarationNames_get hdeclarations
      (bind_eq_ok.mpr ⟨_, hdeclarations, rfl⟩) written_helper List.not_mem_nil).mp hget
    rw [hspelled] at hspelled'
    exact absurd (Option.some.inj hspelled') (by decide)

end

theorem helperEdges_lt : ∀ i ∈ helperEdges 1 2, i.target < 3 := by decide

theorem reverse_helperEdges_lt : ∀ i ∈ (helperEdges 2 1).reverse, i.target < 3 := by decide

theorem helperTable_eq : NamespaceTable.new
    (helperGraph "/p/m.ag" "/p/z.ag" (helperEdges 1 2) helperEdges_lt) = .ok (helperTable 1 2) := by
  have hinitial : initialCandidates
      (helperGraph "/p/m.ag" "/p/z.ag" (helperEdges 1 2) helperEdges_lt) = .ok _ := rfl
  refine bind_eq_ok.mpr ⟨_, hinitial, bind_eq_ok.mpr ⟨(helperTable 1 2).exports, ?_, rfl⟩⟩
  rw [show closeCandidates _ _ = _ from Saturate.saturate_of_eq _ rfl]
  rfl

theorem reverse_helperTable_eq : NamespaceTable.new
    (helperGraph "/p/a/../z.ag" "/p/m.ag" (helperEdges 2 1).reverse reverse_helperEdges_lt) =
      .ok (helperTable 2 1) := by
  have hinitial : initialCandidates
      (helperGraph "/p/a/../z.ag" "/p/m.ag" (helperEdges 2 1).reverse reverse_helperEdges_lt) =
        .ok _ := rfl
  refine bind_eq_ok.mpr ⟨_, hinitial, bind_eq_ok.mpr ⟨(helperTable 2 1).exports, ?_, rfl⟩⟩
  rw [show closeCandidates _ _ = _ from Saturate.saturate_of_eq _ rfl]
  rfl

/-- what the loader makes of the project -/
def helperSources (second third : String) (imports : List ResolvedImport)
    (sourceIds : List (SourceIdentity × ModuleId)) : SourceSet :=
  ⟨helperModules second third, [imports, [], []], sourceIds⟩

theorem loaded_of_isOk {files : FileSystem} {sources : SourceSet}
    (h : (SourceSet.discoverFile files 2 "/p/root.ag").toOption = some (sources, 0)) :
    SourceSet.discoverFile files 2 "/p/root.ag" = .ok (sources, 0) := by
  cases hload : SourceSet.discoverFile files 2 "/p/root.ag" with
  | error e =>
    rw [hload] at h
    cases h
  | ok loaded =>
    rw [hload] at h
    rw [Option.some.inj h]

/-- the project, and the project with the imports of its root in reverse order -/
def inOrder : ResolvedModules := helpers "/p/m.ag" "/p/z.ag" _ _ _ helperTable_eq
def inReverse : ResolvedModules := helpers "/p/a/../z.ag" "/p/m.ag" _ _ _ reverse_helperTable_eq

/-- the helper of `m.ag` keeps its name in one order of the imports and not in the other -/
theorem importOrder_renames :
    (∃ sources, SourceSet.discoverFile (helperProject helperImports) 2 "/p/root.ag" = .ok (sources, 0) ∧
      inOrder.graph.modules = sources.files ∧ inOrder.graph.imports = sources.edges) ∧
    (∃ sources, SourceSet.discoverFile (helperProject helperImports.reverse) 2 "/p/root.ag" =
        .ok (sources, 0) ∧
      inReverse.graph.modules = sources.files ∧ inReverse.graph.imports = sources.edges) ∧
    inOrder.declarationPath (helperId 1) = "/p/m.ag" ∧
    inReverse.declarationPath (helperId 2) = "/p/m.ag" ∧
    (∃ names, inOrder.selectedDeclarationNames none [] = .ok names ∧
      names.get (helperId 1) = some "helper") ∧
    ∃ names, inReverse.selectedDeclarationNames none [] = .ok names ∧
      names.get (helperId 2) ≠ some "helper" := by
  have hpath : pathComponents "/p/m.ag" < pathComponents "/p/z.ag" := by decide +kernel
  have hpath' : pathComponents "/p/a/../z.ag" < pathComponents "/p/m.ag" := by decide +kernel
  refine ⟨?_, ?_, rfl, rfl, ?_, ?_⟩
  · exact ⟨helperSources "/p/m.ag" "/p/z.ag" (helperEdges 1 2) [(.file "/p/root.ag", 0),
      (.file "/p/m.ag", 1), (.file "/p/z.ag", 2)], loaded_of_isOk (by decide +kernel), rfl, rfl⟩
  · exact ⟨helperSources "/p/a/../z.ag" "/p/m.ag" (helperEdges 2 1).reverse [(.file "/p/root.ag", 0),
      (.file "/p/z.ag", 1), (.file "/p/m.ag", 2)], loaded_of_isOk (by decide +kernel), rfl, rfl⟩
  · have hgiven : ∃ names, inOrder.selectedDeclarationNames none [] = .ok names ∧
        names.get (helperId 1) = some "helper" ∧ names.get (helperId 2) ≠ some "helper" :=
      names_helpers hpath
    obtain ⟨names, hnames, hget, _⟩ := hgiven
    exact ⟨names, hnames, hget⟩
  · have hgiven : ∃ names, inReverse.selectedDeclarationNames none [] = .ok names ∧
        names.get (helperId 1) = some "helper" ∧ names.get (helperId 2) ≠ some "helper" :=
      names_helpers hpath'
    obtain ⟨names, hnames, _, hget⟩ := hgiven
    exact ⟨names, hnames, hget⟩

end Argent.Resolve
