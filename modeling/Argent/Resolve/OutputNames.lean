import Argent.Model.Naming
import Argent.Resolve.Program
import Mathlib.Data.List.Lex
import Mathlib.Data.Prod.Lex

/-!
# Output names

`selected_declaration_names` of `compiler/resolve/mod.rs`: every declaration that is compiled gets a
name of its own.  Actors keep their names, the other declarations are named one after the other, and
one whose name is taken, or is a local name of another file, is given a generated name.

* `orderedDeclarations`       the order in which names are given;
* `selectedDeclarationNames`       the names;
* `spelled`                   the first declaration that may keep a name;
* `selectedDeclarationNames_get`      **a name of the source is the output name of the first
                               declaration that may keep it, and of no other**.
-/

set_option linter.unusedSectionVars false

namespace Argent.Resolve
open Argent.Fallible

def RESERVED_GENERATED_MODULE_NAME_PREFIX : String := "gen__module__"

/-- the generated name of a declaration, with the number that makes it free -/
def generatedName (suffix : Nat) (sourceName : String) : String :=
  RESERVED_GENERATED_MODULE_NAME_PREFIX ++ toString suffix ++ "__" ++ sourceName

/-- a name that can be written in a source file -/
def Written (name : String) : Prop := ∀ suffix sourceName, name ≠ generatedName suffix sourceName

theorem generatedName_injective (sourceName : String) :
    Function.Injective fun suffix => generatedName suffix sourceName := by
  intro m n h
  have hlist := congrArg String.toList h
  simp only [generatedName, String.toList_append, List.append_assoc] at hlist
  have hrest := List.append_cancel_left hlist
  rw [← List.append_assoc, ← List.append_assoc] at hrest
  have hdigits := List.append_cancel_right (List.append_cancel_right hrest)
  exact Model.toString_injective (String.toList_inj.mp hdigits)

theorem exists_free (used : BTreeSet String) (sourceName : String) :
    ∃ n, generatedName (n + 1) sourceName ∉ used := by
  have hinj : Function.Injective fun n => generatedName (n + 1) sourceName :=
    (generatedName_injective sourceName).comp (add_left_injective 1)
  obtain ⟨_, ⟨n, rfl⟩, hfree⟩ :=
    (Set.infinite_range_of_injective hinj).exists_notMem_finset used.toFinset
  exact ⟨n, hfree⟩

/-- the loop over the suffixes -/
def freeName (used : BTreeSet String) (sourceName : String) : String :=
  generatedName (Nat.find (exists_free used sourceName) + 1) sourceName

/-- one component of a path after its start: an empty one and `.` are left out, and a parent
directory is before every name -/
def pathComponent : List Char → Option (Nat ×ₗ List Char)
  | [] => none
  | ['.'] => none
  | ['.', '.'] => some (toLex (2, []))
  | name => some (toLex (3, name))

/-- how a path starts: at the root, or at the current directory -/
def pathStart : List Char → List (Nat ×ₗ List Char)
  | '/' :: _ => [toLex (0, [])]
  | ['.'] => [toLex (1, [])]
  | '.' :: '/' :: _ => [toLex (1, [])]
  | _ => []

/-- the components of a path, which are compared one by one -/
def pathComponents (path : String) : List (Nat ×ₗ List Char) :=
  pathStart path.toList ++ (path.toList.splitOn '/').filterMap pathComponent

/-- the names so far -/
structure AssignedNames where
  names : BTreeMap DeclId String
  occupied : BTreeSet String

namespace ResolvedModules
variable (resolved : ResolvedModules)

/-- an app's actors, or those that the root module exports -/
def selectedActorIds : Option DeclId → Bound (List DeclId)
  | some app => resolved.appActorIds app
  | none => .ok (resolved.rootDeclarations.filter fun id => id.kind = .actor)

/-- `app_declarations` with or without an app -/
def selectedDeclarations : Option DeclId → Bound (BTreeSet DeclId)
  | some app => resolved.appDeclarations app
  | none => .ok (resolved.declarationClosure
      ((resolved.rootDeclarations.filter fun id => id.kind ≠ .actor ∧ id.kind ≠ .app) ++
        resolved.rootDeclarations.filter fun id => id.kind = .actor))

/-- a state of the program -/
def stateDecl (id : DeclId) : Option StateDecl :=
  if id.kind = .state then resolved.graph.modules[id.moduleId]?.bind (·.states[id.index]?) else none

/-- the declaration that a name of another one refers to -/
def boundDeclaration (bindings : DeclarationBindings) (name : String) : Option DeclId :=
  match bindings.names.get name with
  | some (.declaration id) => some id
  | _ => none

/-- the state that a state expands -/
def expansionBase (id : DeclId) (bindings : DeclarationBindings) : Option DeclId :=
  (resolved.stateDecl id).bind fun state => state.expansionBase.bind (boundDeclaration bindings)

/-- `while seen.insert(state_id)`: a state, the state that it expands, and so on -/
def expandedStates (state : DeclId) : BTreeSet DeclId :=
  Worklist.close (resolved.bindings.mapEntries fun id bindings =>
    (resolved.expansionBase id bindings).toList) ∅ [state]

def stateFields (id : DeclId) : List String :=
  ((resolved.stateDecl id).map StateDecl.fields).getD []

/-- the functions of an actor, and the fields of its state and of the states that this expands -/
def actorNames (bindings : DeclarationBindings) (actor : ActorDecl) : List String :=
  actor.functions ++ match boundDeclaration bindings actor.state with
    | some state => (resolved.expandedStates state).toList.flatMap resolved.stateFields
    | none => []

/-- names owned by local scopes or runtime syntax, which no declaration of another file may have in
the output -/
def reservedLocalNames (owner : DeclId) : List String :=
  match resolved.bindings.get owner with
  | some bindings => bindings.localNames.toList ++ bindings.runtimeTexts ++
      match resolved.program.actorDecl owner with
      | some actor => resolved.actorNames bindings actor
      | none => []
  | none => []

/-- the path of a declaration's file, as paths are compared -/
def fileOf (id : DeclId) : List (Nat ×ₗ List Char) := pathComponents (resolved.declarationPath id)

/-- the local names in the files of the other declarations -/
def foreignLocals (declarations : BTreeSet DeclId) (id : DeclId) : BTreeSet String :=
  .ofList ((declarations.toList.filter fun owner => resolved.fileOf owner ≠ resolved.fileOf id).flatMap
    resolved.reservedLocalNames)

/-- exports of the root module come first, then the order is that of the files -/
def orderKey (id : DeclId) : Bool ×ₗ List (Nat ×ₗ List Char) ×ₗ Nat ×ₗ Nat :=
  toLex (decide (id ∉ resolved.rootDeclarations),
    toLex (resolved.fileOf id, toLex (id.kind.rank, id.index)))

def orderedDeclarations (declarations : BTreeSet DeclId) : List DeclId :=
  declarations.toList.mergeSort fun left right => resolved.orderKey left ≤ resolved.orderKey right

/-- an actor keeps its name -/
def nameActor (assigned : AssignedNames) (id : DeclId) : AssignedNames where
  names := assigned.names.insert id (resolved.sourceName id)
  occupied := insert (resolved.sourceName id) assigned.occupied

/-- the name of one declaration; `declarations` are all of them -/
def outputName (declarations : BTreeSet DeclId) (occupied : BTreeSet String) (id : DeclId) :
    String :=
  let foreign := resolved.foreignLocals declarations id
  if resolved.sourceName id ∈ occupied ∨ resolved.sourceName id ∈ foreign then
    freeName ((occupied.extend (declarations.toList.map resolved.sourceName)).extend foreign.toList)
      (resolved.sourceName id)
  else resolved.sourceName id

/-- one declaration of the ordered ones -/
def nameDeclaration (declarations : BTreeSet DeclId) (assigned : AssignedNames) (id : DeclId) :
    AssignedNames :=
  if assigned.names.contains id then assigned
  else
    let name := resolved.outputName declarations assigned.occupied id
    { names := assigned.names.insert id name, occupied := insert name assigned.occupied }

def selectedDeclarationNames (selected : Option DeclId) (actors : List DeclId) :
    Bound (BTreeMap DeclId String) := do
  let declarations ← resolved.selectedDeclarations selected
  let assigned := (resolved.orderedDeclarations declarations).foldl
    (resolved.nameDeclaration declarations) (actors.foldl resolved.nameActor ⟨∅, ∅⟩)
  return assigned.names

/-! ## who keeps a name -/

/-- a declaration that is no actor and whose name is not local in another file -/
def MayKeepName (declarations : BTreeSet DeclId) (actors : List DeclId) (id : DeclId) : Prop :=
  id ∉ actors ∧ resolved.sourceName id ∉ resolved.foreignLocals declarations id

instance (declarations : BTreeSet DeclId) (actors : List DeclId) :
    DecidablePred (resolved.MayKeepName declarations actors) :=
  fun _ => inferInstanceAs (Decidable (_ ∧ _))

/-- the declarations of `ids` that may keep their names, after the actors -/
def keepers (declarations : BTreeSet DeclId) (actors ids : List DeclId) : List DeclId :=
  actors ++ ids.filter fun id => resolved.MayKeepName declarations actors id

/-- the first keeper of a name -/
def keeper (declarations : BTreeSet DeclId) (actors ids : List DeclId) (name : String) :
    Option DeclId :=
  (resolved.keepers declarations actors ids).find? fun id => resolved.sourceName id = name

/-- the first declaration that may keep a name, in the order in which names are given -/
def spelled (declarations : BTreeSet DeclId) (actors : List DeclId) (name : String) :
    Option DeclId :=
  resolved.keeper declarations actors (resolved.orderedDeclarations declarations) name

/-- the names after the actors and the declarations in `done` -/
structure NamesGiven (declarations : BTreeSet DeclId) (actors done : List DeclId)
    (assigned : AssignedNames) : Prop where
  named : ∀ id, assigned.names.contains id = true ↔ id ∈ actors ∨ id ∈ done
  taken : ∀ name, Written name →
    (name ∈ assigned.occupied ↔ resolved.keeper declarations actors done name ≠ none)
  kept : ∀ name, Written name → ∀ id ∉ actors, assigned.names.get id = some name ↔
    resolved.keeper declarations actors done name = some id

variable {resolved}
variable {declarations : BTreeSet DeclId} {actors : List DeclId}

theorem mem_keepers {ids : List DeclId} {id : DeclId} (h : id ∉ actors) :
    id ∈ resolved.keepers declarations actors ids ↔
      id ∈ ids ∧ resolved.MayKeepName declarations actors id := by
  unfold keepers
  rw [List.mem_append, List.mem_filter, decide_eq_true_eq]
  exact or_iff_right h

theorem keeper_some {ids : List DeclId} {name : String} {id : DeclId}
    (h : resolved.keeper declarations actors ids name = some id) :
    id ∈ resolved.keepers declarations actors ids ∧ resolved.sourceName id = name := by
  have hname := List.find?_some h
  exact ⟨List.mem_of_find?_eq_some h, of_decide_eq_true hname⟩

theorem keeper_ne_none {ids : List DeclId} {id : DeclId} (hid : id ∈ ids)
    (hkeep : resolved.MayKeepName declarations actors id) :
    resolved.keeper declarations actors ids (resolved.sourceName id) ≠ none := by
  intro hnone
  have hmem := (mem_keepers hkeep.1).mpr ⟨hid, hkeep⟩
  exact List.find?_eq_none.mp hnone id hmem (decide_eq_true rfl)

theorem keeper_snoc (ids : List DeclId) (id : DeclId) (name : String) :
    resolved.keeper declarations actors (ids ++ [id]) name =
      (resolved.keeper declarations actors ids name).or
        (if resolved.MayKeepName declarations actors id ∧ resolved.sourceName id = name then some id
          else none) := by
  unfold keeper keepers
  rw [List.filter_append, ← List.append_assoc, List.find?_append, List.filter_singleton]
  by_cases hkeep : resolved.MayKeepName declarations actors id
  · rw [decide_eq_true hkeep, cond_true, List.find?_singleton]
    simp only [hkeep, true_and, decide_eq_true_eq]
  · rw [decide_eq_false hkeep, cond_false, if_neg fun h => hkeep h.1]
    rfl

theorem outputName_iff {occupied : BTreeSet String} {id : DeclId} {name : String}
    (hname : Written name) : resolved.outputName declarations occupied id = name ↔
      resolved.sourceName id = name ∧ name ∉ occupied ∧
        name ∉ resolved.foreignLocals declarations id := by
  unfold outputName
  dsimp only
  split_ifs with h
  · refine ⟨fun heq => absurd heq.symm (hname _ _), ?_⟩
    rintro ⟨rfl, hoccupied, hforeign⟩
    exact absurd h (not_or.mpr ⟨hoccupied, hforeign⟩)
  · refine ⟨fun heq => ?_, And.left⟩
    rw [← heq]
    exact ⟨rfl, not_or.mp h⟩

theorem NamesGiven.skip {done : List DeclId} {assigned : AssignedNames}
    (h : resolved.NamesGiven declarations actors done assigned) {id : DeclId}
    (hid : assigned.names.contains id = true) :
    resolved.NamesGiven declarations actors (done ++ [id]) assigned := by
  have hsame : ∀ name, resolved.keeper declarations actors (done ++ [id]) name =
      resolved.keeper declarations actors done name := by
    intro name
    rw [keeper_snoc]
    split_ifs with hkeep
    · have hdone : id ∈ done := ((h.named id).mp hid).resolve_left hkeep.1.1
      have hsome := keeper_ne_none hdone hkeep.1
      rw [hkeep.2] at hsome
      obtain ⟨id', hid'⟩ := Option.ne_none_iff_exists'.mp hsome
      rw [hid', Option.some_or]
    · rw [Option.or_none]
  refine ⟨fun id' => ?_, fun name hname => ?_, fun name hname id' hid' => ?_⟩
  · rw [h.named, List.mem_append, List.mem_singleton, ← or_assoc]
    refine ⟨Or.inl, fun hmem => hmem.elim (fun hold => hold) fun heq => ?_⟩
    rw [heq]
    exact (h.named id).mp hid
  · rw [hsame]
    exact h.taken name hname
  · rw [hsame]
    exact h.kept name hname id' hid'

theorem NamesGiven.step {done : List DeclId} {assigned : AssignedNames}
    (h : resolved.NamesGiven declarations actors done assigned) (id : DeclId) :
    resolved.NamesGiven declarations actors (done ++ [id])
      (resolved.nameDeclaration declarations assigned id) := by
  unfold nameDeclaration
  by_cases hcontains : assigned.names.contains id = true
  · rw [if_pos hcontains]
    exact h.skip hcontains
  · rw [if_neg hcontains]
    have hactor : id ∉ actors := fun hmem => hcontains ((h.named id).mpr (.inl hmem))
    have hdone : id ∉ done := fun hmem => hcontains ((h.named id).mpr (.inr hmem))
    -- the declaration is given a name of the source when it becomes its keeper
    have hgiven : ∀ name, Written name →
        (resolved.outputName declarations assigned.occupied id = name ↔
          resolved.keeper declarations actors done name = none ∧
            resolved.MayKeepName declarations actors id ∧ resolved.sourceName id = name) := by
      intro name hname
      rw [outputName_iff hname, h.taken name hname, not_not]
      constructor
      · rintro ⟨rfl, hfree, hforeign⟩
        exact ⟨hfree, ⟨hactor, hforeign⟩, rfl⟩
      · rintro ⟨hfree, ⟨_, hforeign⟩, rfl⟩
        exact ⟨rfl, hfree, hforeign⟩
    refine ⟨fun id' => ?_, fun name hname => ?_, fun name hname id' hid' => ?_⟩
    · show ((assigned.names.insert id _).get id').isSome = true ↔ _
      rw [BTreeMap.get_insert, List.mem_append, List.mem_singleton, ← or_assoc, ← h.named]
      split_ifs with heq
      · exact ⟨fun _ => .inr heq, fun _ => rfl⟩
      · exact (or_iff_left heq).symm
    · rw [BTreeSet.mem_insert, eq_comm, hgiven name hname, h.taken name hname, keeper_snoc]
      cases hkeeper : resolved.keeper declarations actors done name with
      | none => simp
      | some id' => simp
    · rw [BTreeMap.get_insert, keeper_snoc]
      split_ifs with heq hkeep hkeep
      · rw [Option.some_inj, hgiven name hname, heq]
        cases hkeeper : resolved.keeper declarations actors done name with
        | none => simp [hkeep]
        | some owner =>
          have hne : owner ≠ id := by
            rintro rfl
            exact hdone ((mem_keepers hactor).mp (keeper_some hkeeper).1).1
          simp [hne]
      · rw [Option.some_inj, hgiven name hname, heq, Option.or_none]
        refine ⟨fun hnew => absurd hnew.2 hkeep, fun hkeeper => ?_⟩
        exact absurd ((mem_keepers hactor).mp (keeper_some hkeeper).1).1 hdone
      · rw [h.kept name hname id' hid']
        cases hkeeper : resolved.keeper declarations actors done name with
        | none => simp [Ne.symm heq]
        | some owner => simp
      · rw [Option.or_none]
        exact h.kept name hname id' hid'

theorem foldl_nameActor {ids : List DeclId} {assigned : AssignedNames} :
    (∀ id, (ids.foldl resolved.nameActor assigned).names.contains id = true ↔
      assigned.names.contains id = true ∨ id ∈ ids) ∧
    ∀ name, name ∈ (ids.foldl resolved.nameActor assigned).occupied ↔
      name ∈ assigned.occupied ∨ ∃ id ∈ ids, resolved.sourceName id = name := by
  induction ids generalizing assigned with
  | nil => simp
  | cons actor ids ih =>
    obtain ⟨hnamed, htaken⟩ := @ih (resolved.nameActor assigned actor)
    refine ⟨fun id => ?_, fun name => ?_⟩
    · rw [List.foldl_cons, hnamed, List.mem_cons, ← or_assoc]
      refine or_congr_left ?_
      show ((assigned.names.insert actor _).get id).isSome = true ↔
        (assigned.names.get id).isSome = true ∨ id = actor
      rw [BTreeMap.get_insert]
      split_ifs with heq
      · exact ⟨fun _ => .inr heq, fun _ => rfl⟩
      · exact (or_iff_left heq).symm
    · rw [List.foldl_cons, htaken, List.exists_mem_cons_iff, ← or_assoc]
      refine or_congr_left ?_
      show name ∈ insert (resolved.sourceName actor) assigned.occupied ↔ _
      rw [BTreeSet.mem_insert, or_comm, eq_comm]

theorem namesGiven_actors : resolved.NamesGiven declarations actors []
    (actors.foldl resolved.nameActor ⟨∅, ∅⟩) := by
  obtain ⟨hnamed, htaken⟩ := @foldl_nameActor resolved actors ⟨∅, ∅⟩
  have hkeepers : resolved.keepers declarations actors [] = actors := List.append_nil _
  have hin : ∀ id, (actors.foldl resolved.nameActor ⟨∅, ∅⟩).names.contains id = true ↔ id ∈ actors :=
    fun id => (hnamed id).trans (or_iff_right Bool.false_ne_true)
  refine ⟨fun id => ?_, fun name _ => ?_, fun name _ id hid => ?_⟩
  · rw [hin]
    exact (or_iff_left List.not_mem_nil).symm
  · rw [htaken, ne_eq, keeper, hkeepers, List.find?_eq_none]
    simp
  · have hnone : (actors.foldl resolved.nameActor ⟨∅, ∅⟩).names.get id = none :=
      Option.not_isSome_iff_eq_none.mp fun hsome => hid ((hin id).mp hsome)
    rw [hnone]
    refine ⟨fun h => ?_, fun h => ?_⟩
    · cases h
    · exact absurd (hkeepers ▸ (keeper_some h).1) hid

theorem NamesGiven.foldl {done ids : List DeclId} {assigned : AssignedNames}
    (h : resolved.NamesGiven declarations actors done assigned) :
    resolved.NamesGiven declarations actors (done ++ ids)
      (ids.foldl (resolved.nameDeclaration declarations) assigned) := by
  induction ids generalizing done assigned with
  | nil =>
    rw [List.append_nil]
    exact h
  | cons id ids ih =>
    rw [List.append_cons]
    exact ih (h.step id)

/-- **a name of the source is the output name of the first declaration that may keep it, and of no
other** -/
theorem selectedDeclarationNames_get {selected : Option DeclId} {names : BTreeMap DeclId String}
    (hdeclarations : resolved.selectedDeclarations selected = .ok declarations)
    (hnames : resolved.selectedDeclarationNames selected actors = .ok names) {name : String}
    (hname : Written name) {id : DeclId} (hid : id ∉ actors) :
    names.get id = some name ↔ resolved.spelled declarations actors name = some id := by
  obtain ⟨declarations', hdeclarations', hnames⟩ := bind_eq_ok.mp hnames
  rw [hdeclarations] at hdeclarations'
  cases hdeclarations'
  rw [← pure_eq_ok.mp hnames]
  exact namesGiven_actors.foldl.kept name hname id hid

end ResolvedModules

end Argent.Resolve
