import Argent.Model.Entry
import Argent.Resolve.AppGraphSound
import Argent.Resolve.Consts
import Argent.Resolve.OutputNames

/-!
# Bounds of ranges

`ResolvedCardinality::resolve` of `compiler/model/entry.rs`: a bound of a range is an integer or the
name of a constant.  A name is looked up as it is written among the output names of the constants.

* `resolveCardinalityBound`       the value of a bound, or why it has none;
* `SelectedRange`                a range of an entry of a selected actor;
* `BoundMeans`                   the bound is the value of the constant its name resolves to;
* `SelectedRange.resolve_iff`      **both bounds do if and only if their spellings lead to constants of
                               the same values**.
-/

set_option linter.unusedSectionVars false

namespace Argent.Resolve
open Argent.Fallible

/-- the text for a bound that has no value -/
def boundError (actorName entryName handle name : String) : ConstIntError → String
  | .unknown => s!"entry `{actorName}::{entryName}` range `{handle}` references unknown constant `{name}`"
  | .wrongType actual =>
    s!"entry `{actorName}::{entryName}` range `{handle}` bound `{name}` must have type `int`, " ++
      s!"found `{actual}`"
  | .invalidLiteral =>
    s!"entry `{actorName}::{entryName}` range `{handle}` bound `{name}` must be initialized with " ++
      "a valid `int` literal"
  | .cycle => s!"entry `{actorName}::{entryName}` range `{handle}` bound `{name}` has a constant cycle"
  | .overflow => s!"entry `{actorName}::{entryName}` range `{handle}` bound `{name}` overflows `int`"
  | .divisionByZero =>
    s!"entry `{actorName}::{entryName}` range `{handle}` bound `{name}` divides by zero"

def resolveCardinalityBound (bound : CardinalityBound) (actorName entryName handle : String)
    (consts : ConstResolver) : Except ArgentError Int :=
  match bound with
  | .literal value => .ok value
  | .const name =>
    (consts.resolveInt name).mapError fun e => .new (boundError actorName entryName handle name e)

/-- `ResolvedCardinality::resolve` -/
def ResolvedCardinality.resolve (cardinality : Cardinality) (actorName entryName handle : String)
    (consts : ConstResolver) : Except ArgentError Model.ResolvedCardinality :=
  match cardinality with
  | .one => .ok .one
  | .range minimum maximum => do
    let minimum ← resolveCardinalityBound minimum actorName entryName handle consts
    let maximum ← resolveCardinalityBound maximum actorName entryName handle consts
    (Model.ResolvedCardinality.resolveRange actorName entryName handle minimum maximum).mapError
      ArgentError.new

/-- the items of all clauses -/
def EntryDecl.handles (entry : EntryDecl) : List HandleDecl :=
  entry.consumes ++ entry.emits ++ entry.observes.flatMap (fun o => o.inputs ++ o.outputs) ++
    entry.spawns.flatMap SpawnDecl.outputs

namespace ResolvedModules
variable (resolved : ResolvedModules)

/-- a range of an entry of a selected actor, in a program whose names were bound -/
structure SelectedRange where
  selected : Option DeclId
  actors : List DeclId
  actors_eq : resolved.selectedActorIds selected = .ok actors
  declarations : BTreeSet DeclId
  declarations_eq : resolved.selectedDeclarations selected = .ok declarations
  names : BTreeMap DeclId String
  names_eq : resolved.selectedDeclarationNames selected actors = .ok names
  actor : DeclId
  actor_mem : actor ∈ actors
  decl : ActorDecl
  decl_eq : resolved.program.actorDecl actor = some decl
  entry : EntryDecl
  entry_mem : entry ∈ decl.entries
  handle : HandleDecl
  handle_mem : handle ∈ entry.handles
  minimum : CardinalityBound
  maximum : CardinalityBound
  cardinality_eq : handle.cardinality = .range minimum maximum
  /-- the lexer refuses names with the prefix of generated ones -/
  written : ∀ name, .const name = minimum ∨ .const name = maximum → Written name
  /-- the binder requires that the names of bounds refer to constants -/
  bound_const : ∀ name, .const name = minimum ∨ .const name = maximum →
    ∃ id, resolved.resolve actor.moduleId name = .ok (.declaration id) ∧ id.kind = .const

/-- the value of a bound that is written in a module -/
def BoundValue (fromModule : ModuleId) : CardinalityBound → Int → Prop
  | .literal value, value' => value' = value
  | .const name, value => ∃ id, resolved.resolve fromModule name = .ok (.declaration id) ∧
      resolved.ConstValue id value

theorem expectActor_kind {app : DeclId} {reference : String} {target : ResolvedName}
    {actor : DeclId} (h : resolved.expectActor app reference target = .ok actor) :
    actor.kind = .actor := by
  obtain rfl := expectActor_ok h
  by_contra hkind
  unfold expectActor at h
  simp only [if_neg hkind] at h
  cases h

theorem appActorIds_kind {app actor : DeclId} {actors : List DeclId}
    (h : resolved.appActorIds app = .ok actors) (hactor : actor ∈ actors) :
    actor.kind = .actor := by
  obtain ⟨decl, _, h⟩ := bind_eq_ok.mp h
  obtain ⟨actors', hactors, h⟩ := bind_eq_ok.mp h
  obtain ⟨_, _, h⟩ := bind_eq_ok.mp h
  rw [← pure_eq_ok.mp h] at hactor
  obtain ⟨reference, _, hreference⟩ := mem_of_mapM_ok hactors hactor
  obtain ⟨target, _, hexpect⟩ := bind_eq_ok.mp hreference
  exact resolved.expectActor_kind hexpect

namespace SelectedRange
variable {resolved} (range : SelectedRange resolved)

/-- the values of the constants by their output names -/
def consts : ConstResolver := .fromResolved resolved range.names

/-- how a bound of the range is resolved -/
def resolveBound (bound : CardinalityBound) : Except ArgentError Int :=
  resolveCardinalityBound bound range.decl.name range.entry.name range.handle.name range.consts

/-- a bound is resolved to the value it has where it is written, and to no other -/
def BoundMeans (bound : CardinalityBound) : Prop :=
  ∀ value, range.resolveBound bound = .ok value ↔
    resolved.BoundValue range.actor.moduleId bound value

/-- the first declaration whose name is the spelling of the bound is a constant of the value that is
meant, and there is none when there is no value -/
def SpellingMeans : CardinalityBound → Prop
  | .literal _ => True
  | .const name => ∀ value, resolved.BoundValue range.actor.moduleId (.const name) value ↔
      ∃ id, resolved.spelled range.declarations range.actors name = some id ∧ id.kind = .const ∧
        resolved.ConstValue id value

variable {range}

theorem not_mem_actors {id : DeclId} (hkind : id.kind = .const) : id ∉ range.actors := by
  intro hid
  have hactor : id.kind = .actor := by
    have heq := range.actors_eq
    unfold selectedActorIds at heq
    split at heq
    · exact resolved.appActorIds_kind heq hid
    · rw [← Except.ok.inj heq] at hid
      exact of_decide_eq_true (List.mem_filter.mp hid).2
  rw [hkind] at hactor
  cases hactor

/-- a name of the source is the output name of at most one constant -/
theorem names_get {name : String} (hname : Written name) {id : DeclId} (hkind : id.kind = .const) :
    range.names.get id = some name ↔
      resolved.spelled range.declarations range.actors name = some id :=
  selectedDeclarationNames_get range.declarations_eq range.names_eq hname (not_mem_actors hkind)

/-- a named bound is resolved to the value of the constant that keeps its spelling -/
theorem resolveBound_const {name : String} (hname : Written name) {value : Int} :
    range.resolveBound (.const name) = .ok value ↔
      ∃ id, resolved.spelled range.declarations range.actors name = some id ∧ id.kind = .const ∧
        resolved.ConstValue id value := by
  have hvalue : (range.consts.resolveInt name = .ok value ↔ ∃ id, range.names.get id = some name ∧
      id.kind = .const ∧ resolved.ConstValue id value) := by
    refine ConstResolver.resolveInt_ok fun id id' hid hkind hid' hkind' => ?_
    have hfirst := (names_get hname hkind).mp hid
    have hfirst' := (names_get hname hkind').mp hid'
    exact Option.some.inj (hfirst.symm.trans hfirst')
  refine Iff.trans ?_ (hvalue.trans ?_)
  · exact mapError_eq_ok
  · refine exists_congr fun id => ⟨?_, ?_⟩
    · rintro ⟨hid, hkind, hmeans⟩
      exact ⟨(names_get hname hkind).mp hid, hkind, hmeans⟩
    · rintro ⟨hid, hkind, hmeans⟩
      exact ⟨(names_get hname hkind).mpr hid, hkind, hmeans⟩

theorem boundMeans_iff {bound : CardinalityBound}
    (hwritten : ∀ name, .const name = bound → Written name) :
    range.BoundMeans bound ↔ range.SpellingMeans bound := by
  cases bound with
  | literal value =>
    refine iff_of_true (fun value' => ?_) trivial
    show Except.ok value = .ok value' ↔ value' = value
    rw [Except.ok.injEq, eq_comm]
  | const name =>
    refine forall_congr' fun value => ?_
    rw [resolveBound_const (hwritten name rfl)]
    exact iff_comm

variable (range)

/-- **both bounds are the values they have where they are written if and only if their spellings are
kept by constants of these values; the resolved range has these bounds** -/
theorem resolve_iff :
    (range.BoundMeans range.minimum ∧ range.BoundMeans range.maximum ↔
      range.SpellingMeans range.minimum ∧ range.SpellingMeans range.maximum) ∧
    ∀ cardinality, ResolvedCardinality.resolve range.handle.cardinality range.decl.name
        range.entry.name range.handle.name range.consts = .ok cardinality →
      ∃ bounds : Model.RangeBounds, cardinality = .range bounds ∧
        range.resolveBound range.minimum = .ok bounds.minimum ∧
        range.resolveBound range.maximum = .ok bounds.maximum := by
  refine ⟨and_congr (boundMeans_iff fun name h => range.written name (.inl h))
    (boundMeans_iff fun name h => range.written name (.inr h)), fun cardinality h => ?_⟩
  rw [range.cardinality_eq] at h
  obtain ⟨minimum, hminimum, h⟩ := bind_eq_ok.mp h
  obtain ⟨maximum, hmaximum, h⟩ := bind_eq_ok.mp h
  unfold Model.ResolvedCardinality.resolveRange at h
  split_ifs at h
  · cases h
  · cases h
  · cases h
  · exact ⟨_, (Except.ok.inj h).symm, hminimum, hmaximum⟩

end SelectedRange

end ResolvedModules

/-! ## a bound with a qualified name -/

/-- `import limits as limits; … emits out[0..=limits::MAX] …` and `const int MAX = 5;` -/
def qualifiedGraph : ModuleGraph where
  modules :=
    [⟨"root.ag", [], [⟨"S", [], none⟩], [], [⟨"A", "S", [], [⟨"run", [],
        [⟨"out", .range (.literal 0) (.const "limits::MAX")⟩], [], []⟩]⟩], [], [⟨"Test", ["A"]⟩]⟩,
      ⟨"limits.ag", [⟨.int, "MAX", .int 5⟩], [], [], [], [], []⟩]
  imports := [[⟨1, some "limits"⟩], []]
  length_eq := rfl
  targets_lt := by decide

def qualifiedCandidates : List Candidates :=
  [(MultiMap.add "limits" (.namespaceOf 1) ∘ MultiMap.add "Test" (.declaration ⟨0, .app, 0⟩) ∘
      MultiMap.add "A" (.declaration ⟨0, .actor, 0⟩) ∘
        MultiMap.add "S" (.declaration ⟨0, .state, 0⟩)) ∅,
    MultiMap.add "MAX" (.declaration ⟨1, .const, 0⟩) ∅]

def qualifiedTable : NamespaceTable :=
  ⟨[(BTreeMap.insert "limits" (.namespaceOf 1) ∘ BTreeMap.insert "Test" (.declaration ⟨0, .app, 0⟩) ∘
      BTreeMap.insert "S" (.declaration ⟨0, .state, 0⟩) ∘
        BTreeMap.insert "A" (.declaration ⟨0, .actor, 0⟩)) ∅,
    BTreeMap.insert "MAX" (.declaration ⟨1, .const, 0⟩) ∅]⟩

def qualifiedBindings : BTreeMap DeclId DeclarationBindings :=
  (BTreeMap.insert ⟨0, .app, 0⟩ ⟨{⟨0, .actor, 0⟩}, ∅, ∅, fun _ => none, ∅, []⟩ ∘
    BTreeMap.insert ⟨0, .actor, 0⟩ ⟨{⟨1, .const, 0⟩}, ∅, ∅, fun _ => none, ∅, []⟩) ∅

theorem qualifiedTable_eq : NamespaceTable.new qualifiedGraph = .ok qualifiedTable := by
  have hinitial : initialCandidates qualifiedGraph = .ok qualifiedCandidates := rfl
  have hclosed : closeCandidates qualifiedGraph.imports qualifiedCandidates = qualifiedCandidates :=
    Saturate.saturate_of_eq _ rfl
  refine bind_eq_ok.mpr ⟨_, hinitial, bind_eq_ok.mpr ⟨qualifiedTable.exports, ?_, rfl⟩⟩
  rw [hclosed]
  rfl

def qualified : ResolvedModules where
  program := ⟨qualifiedGraph, qualifiedTable, qualifiedTable_eq⟩
  root := 0
  bindings := qualifiedBindings
  app_actors := by
    intro app decl happ reference hreference
    unfold ResolvedExports.appDecl at happ
    split_ifs at happ
    obtain ⟨m, hmodule, hindex⟩ := Option.bind_eq_some_iff.mp happ
    have hlt : app.moduleId < 2 := (List.getElem?_eq_some_iff.mp hmodule).1
    obtain hzero | hone := Nat.le_one_iff_eq_zero_or_eq_one.mp (Nat.lt_succ_iff.mp hlt)
    · rw [hzero] at hmodule
      obtain rfl := Option.some.inj hmodule
      obtain rfl := List.mem_singleton.mp (List.mem_of_getElem? hindex)
      obtain rfl := List.mem_singleton.mp hreference
      exact ⟨⟨0, .actor, 0⟩, by rw [hzero, pathSegments_actor]; rfl, rfl⟩
    · rw [hone] at hmodule
      obtain rfl := Option.some.inj hmodule
      exact absurd (List.mem_of_getElem? hindex) List.not_mem_nil
  bound_declarations := by
    intro id recorded h id' hid'
    simp only [qualifiedBindings, Function.comp, BTreeMap.get_insert, BTreeMap.get_empty] at h
    split_ifs at h
    · obtain rfl := Option.some.inj h
      obtain rfl := BTreeSet.mem_singleton.mp hid'
      exact ⟨_, rfl, Nat.zero_lt_one⟩
    · obtain rfl := Option.some.inj h
      obtain rfl := BTreeSet.mem_singleton.mp hid'
      exact ⟨_, rfl, Nat.zero_lt_one⟩
  bound_apps := by
    intro id recorded h member hmember
    simp only [qualifiedBindings, Function.comp, BTreeMap.get_insert, BTreeMap.get_empty] at h
    split_ifs at h
    · rw [← Option.some.inj h] at hmember
      exact absurd hmember (BTreeSet.not_mem_empty member)
    · rw [← Option.some.inj h] at hmember
      exact absurd hmember (BTreeSet.not_mem_empty member)

theorem pathSegments_qualified : pathSegments "limits::MAX" = ["limits", "MAX"] := by
  decide +kernel

theorem resolve_qualified :
    qualified.resolve 0 "limits::MAX" = .ok (.declaration ⟨1, .const, 0⟩) := by
  apply ResolvedModules.resolve_of_followPath
  rw [pathSegments_qualified]
  rfl

theorem qualified_actors :
    qualified.selectedActorIds (some ⟨0, .app, 0⟩) = .ok [⟨0, .actor, 0⟩] := rfl

theorem sourceName_qualified (id : DeclId) : qualified.sourceName id ≠ "limits::MAX" := by
  have hnames : ∀ m ∈ qualifiedGraph.modules, ∀ kind ∈ SymbolKind.all,
      "limits::MAX" ∉ m.names kind := by decide
  intro hname
  unfold ResolvedModules.sourceName at hname
  cases hdecl : qualified.declName id with
  | none =>
    rw [hdecl] at hname
    exact absurd hname (by decide)
  | some name =>
    rw [hdecl, Option.getD_some] at hname
    obtain ⟨m, hmodule, hindex⟩ := Option.bind_eq_some_iff.mp hdecl
    exact hnames m (List.mem_of_getElem? hmodule) id.kind (SymbolKind.mem_all _)
      (hname ▸ List.mem_of_getElem? hindex)

theorem written_qualified : Written "limits::MAX" := by
  intro suffix sourceName h
  have hhead := congrArg (fun s => s.toList.head?) h
  unfold generatedName RESERVED_GENERATED_MODULE_NAME_PREFIX at hhead
  simp only [String.toList_append, List.append_assoc] at hhead
  exact absurd (Option.some.inj hhead) (by decide)

theorem qualified_declarations :
    ∃ declarations, qualified.selectedDeclarations (some ⟨0, .app, 0⟩) = .ok declarations :=
  ⟨_, bind_eq_ok.mpr ⟨_, qualified_actors, rfl⟩⟩

theorem qualified_names :
    ∃ names, qualified.selectedDeclarationNames (some ⟨0, .app, 0⟩) [⟨0, .actor, 0⟩] = .ok names := by
  obtain ⟨declarations, h⟩ := qualified_declarations
  exact ⟨_, bind_eq_ok.mpr ⟨declarations, h, rfl⟩⟩

/-- the bound names a constant of value 5, and is reported as unknown -/
theorem qualified_bound_unknown : ∃ range : qualified.SelectedRange,
    range.actor.moduleId = 0 ∧ range.maximum = .const "limits::MAX" ∧
      qualified.resolve 0 "limits::MAX" = .ok (.declaration ⟨1, .const, 0⟩) ∧
      qualified.ConstValue ⟨1, .const, 0⟩ 5 ∧
      range.resolveBound range.maximum = .error (.new
        "entry `A::run` range `out` references unknown constant `limits::MAX`") := by
  obtain ⟨declarations, hdeclarations⟩ := qualified_declarations
  obtain ⟨names, hnames⟩ := qualified_names
  have hwritten : ∀ name, CardinalityBound.const name = .literal 0 ∨
      CardinalityBound.const name = .const "limits::MAX" → name = "limits::MAX" := by
    rintro name (h | h)
    · cases h
    · exact CardinalityBound.const.inj h
  let range : qualified.SelectedRange :=
    { selected := some ⟨0, .app, 0⟩
      actors := [⟨0, .actor, 0⟩]
      actors_eq := qualified_actors
      declarations, declarations_eq := hdeclarations
      names, names_eq := hnames
      actor := ⟨0, .actor, 0⟩
      actor_mem := List.mem_singleton_self _
      decl := _
      decl_eq := rfl
      entry := _
      entry_mem := List.mem_singleton_self _
      handle := _
      handle_mem := List.mem_singleton_self _
      minimum := .literal 0
      maximum := .const "limits::MAX"
      cardinality_eq := rfl
      written := fun name h => hwritten name h ▸ written_qualified
      bound_const := fun name h => ⟨_, hwritten name h ▸ resolve_qualified, rfl⟩ }
  refine ⟨range, rfl, rfl, resolve_qualified, ⟨_, rfl, rfl, .int _ _ 5⟩, ?_⟩
  have hunknown : range.consts.resolveInt "limits::MAX" = .error .unknown := by
    refine ConstResolver.resolveInt_unknown fun id hid hkind => ?_
    have hspelled := (ResolvedModules.SelectedRange.names_get written_qualified hkind).mp hid
    exact sourceName_qualified id (ResolvedModules.keeper_some hspelled).2
  show Except.mapError _ (range.consts.resolveInt "limits::MAX") = _
  rw [hunknown]
  rfl

end Argent.Resolve
